import EvmDispatch.Revision

/-!
# Instructions

An opcode is a byte. `Instruction.ofByte?` reads the opcode matrix, a row per high digit; which of
its entries exist depends on the revision. The machine of this library carries out the instructions
that need nothing but the frame they run in. The others are known by name, so that they can be
shown, and are gathered in `HostInstruction`.
-/

namespace EvmDispatch

/-- Instructions that replace the two topmost items by one. -/
inductive BinaryInstruction where
  | add | mul | sub | lt | gt | eq | and | or | xor | shl | shr
deriving DecidableEq, Repr

/-- Instructions that replace the topmost item. -/
inductive UnaryInstruction where
  | isZero | not
deriving DecidableEq, Repr

/-- Instructions that put a property of the frame or of the machine on the stack. -/
inductive QueryInstruction where
  | address | caller | callDataSize | codeSize | pc | memorySize | gas
deriving DecidableEq, Repr

/-- Instructions that need the chain around the frame, or that this machine leaves out. -/
inductive HostInstruction where
  | div | sdiv | mod | smod | addmod | mulmod | exp | signExtend | slt | sgt | byte | sar | sha3
  | balance | origin | callValue | callDataCopy | codeCopy | gasPrice | extCodeSize | extCodeCopy
  | returnDataSize | returnDataCopy | extCodeHash | blockHash | coinbase | timestamp | number
  | difficulty | gasLimit | create | call | callCode | delegateCall | create2 | staticCall
  | selfDestruct
deriving DecidableEq, Repr

/-- The instructions of all revisions. -/
inductive Instruction where
  /-- Ends the execution without output. -/
  | stop
  /-- Replaces the two topmost items. -/
  | binary (op : BinaryInstruction)
  /-- Replaces the topmost item. -/
  | unary (op : UnaryInstruction)
  /-- Puts a property of the frame or of the machine on the stack. -/
  | query (op : QueryInstruction)
  /-- Replaces an offset by the word of call data that starts there. -/
  | callDataLoad
  /-- Drops the topmost item. -/
  | pop
  /-- Replaces an offset by the word of memory that starts there. -/
  | memoryLoad
  /-- Stores a word in memory. -/
  | memoryStore
  /-- Stores the lowest byte of a word in memory. -/
  | memoryStoreByte
  /-- Replaces a key by the word stored under it. -/
  | storageLoad
  /-- Stores a word under a key. -/
  | storageStore
  /-- Goes to a jump destination. -/
  | jump
  /-- Goes to a jump destination if a condition holds. -/
  | jumpIf
  /-- Marks a jump destination. -/
  | jumpDestination
  /-- Puts the `size` bytes behind the opcode on the stack, as one word. -/
  | push (size : Nat)
  /-- Puts a copy of the `n`-th item on the stack. -/
  | dup (n : Nat)
  /-- Exchanges the topmost item and the one `n` below it. -/
  | swap (n : Nat)
  /-- Writes a log entry with a number of topics. -/
  | log (topics : Nat)
  /-- Ends the execution with output. -/
  | halt
  /-- Asks for the execution to be undone, with output. -/
  | revert
  /-- Fails. -/
  | invalid
  /-- Needs the chain around the frame. -/
  | host (op : HostInstruction)
deriving DecidableEq, Repr

namespace Instruction

/-! ## The opcode matrix -/

/-- The opcodes from `0x00`. -/
def arithmeticRow : List Instruction :=
  [stop, binary .add, binary .mul, binary .sub, host .div, host .sdiv, host .mod, host .smod,
    host .addmod, host .mulmod, host .exp, host .signExtend]

/-- The opcodes from `0x10`. -/
def comparisonRow : List Instruction :=
  [binary .lt, binary .gt, host .slt, host .sgt, binary .eq, unary .isZero, binary .and,
    binary .or, binary .xor, unary .not, host .byte, binary .shl, binary .shr, host .sar]

/-- The opcodes from `0x30`. -/
def environmentRow : List Instruction :=
  [query .address, host .balance, host .origin, query .caller, host .callValue, callDataLoad,
    query .callDataSize, host .callDataCopy, query .codeSize, host .codeCopy, host .gasPrice,
    host .extCodeSize, host .extCodeCopy, host .returnDataSize, host .returnDataCopy,
    host .extCodeHash]

/-- The opcodes from `0x40`. -/
def blockRow : List Instruction :=
  [host .blockHash, host .coinbase, host .timestamp, host .number, host .difficulty,
    host .gasLimit]

/-- The opcodes from `0x50`. -/
def machineRow : List Instruction :=
  [pop, memoryLoad, memoryStore, memoryStoreByte, storageLoad, storageStore, jump, jumpIf,
    query .pc, query .memorySize, query .gas, jumpDestination]

/-- The opcodes from `0xf0`, with the gaps between them. -/
def systemRow : List (Option Instruction) :=
  [host .create, host .call, host .callCode, halt, host .delegateCall, host .create2, none, none,
    none, none, host .staticCall, none, none, revert, invalid, host .selfDestruct]

/-- The instruction of an opcode, in whatever revision. -/
def ofByte? (opcode : UInt8) : Option Instruction :=
  let row := opcode.toNat / 16
  let column := opcode.toNat % 16
  match row with
  | 0x0 => arithmeticRow[column]?
  | 0x1 => comparisonRow[column]?
  | 0x2 => [host .sha3][column]?
  | 0x3 => environmentRow[column]?
  | 0x4 => blockRow[column]?
  | 0x5 => machineRow[column]?
  | 0x6 => some (push (column + 1))
  | 0x7 => some (push (column + 17))
  | 0x8 => some (dup (column + 1))
  | 0x9 => some (swap (column + 1))
  | 0xa => if column ≤ 4 then some (log column) else none
  | 0xf => systemRow[column]?.join
  | _ => none

/-- The revision that introduced an instruction. -/
def introducedIn : Instruction → Revision
  | binary .shl => .constantinople
  | binary .shr => .constantinople
  | host .sar => .constantinople
  | host .returnDataSize => .byzantium
  | host .returnDataCopy => .byzantium
  | host .extCodeHash => .constantinople
  | host .delegateCall => .homestead
  | host .create2 => .constantinople
  | host .staticCall => .byzantium
  | revert => .byzantium
  | _ => .frontier

/-- The instruction of an opcode in a revision. -/
def ofOpcode? (r : Revision) (opcode : UInt8) : Option Instruction :=
  (ofByte? opcode).filter fun i => i.introducedIn ≤ r

/-- The number of bytes behind an opcode that belong to it, in every revision alike. -/
def immediateSize (opcode : UInt8) : Nat :=
  if 0x60 ≤ opcode ∧ opcode ≤ 0x7f then opcode.toNat - 0x5f else 0

/-- The opcode that marks a jump destination. -/
def jumpDestinationByte : UInt8 := 0x5b

/-- The opcodes that jump. -/
def isJumpByte (opcode : UInt8) : Bool := opcode == 0x56 || opcode == 0x57

end Instruction

/-! ## Names -/

/-- The name in listings. -/
def BinaryInstruction.mnemonic : BinaryInstruction → String
  | add => "ADD"
  | mul => "MUL"
  | sub => "SUB"
  | lt => "LT"
  | gt => "GT"
  | eq => "EQ"
  | and => "AND"
  | or => "OR"
  | xor => "XOR"
  | shl => "SHL"
  | shr => "SHR"

/-- The name in listings. -/
def UnaryInstruction.mnemonic : UnaryInstruction → String
  | isZero => "ISZERO"
  | not => "NOT"

/-- The name in listings. -/
def QueryInstruction.mnemonic : QueryInstruction → String
  | address => "ADDRESS"
  | caller => "CALLER"
  | callDataSize => "CALLDATASIZE"
  | codeSize => "CODESIZE"
  | pc => "PC"
  | memorySize => "MSIZE"
  | gas => "GAS"

/-- The name in listings. -/
def HostInstruction.mnemonic : HostInstruction → String
  | div => "DIV"
  | sdiv => "SDIV"
  | mod => "MOD"
  | smod => "SMOD"
  | addmod => "ADDMOD"
  | mulmod => "MULMOD"
  | exp => "EXP"
  | signExtend => "SIGNEXTEND"
  | slt => "SLT"
  | sgt => "SGT"
  | byte => "BYTE"
  | sar => "SAR"
  | sha3 => "SHA3"
  | balance => "BALANCE"
  | origin => "ORIGIN"
  | callValue => "CALLVALUE"
  | callDataCopy => "CALLDATACOPY"
  | codeCopy => "CODECOPY"
  | gasPrice => "GASPRICE"
  | extCodeSize => "EXTCODESIZE"
  | extCodeCopy => "EXTCODECOPY"
  | returnDataSize => "RETURNDATASIZE"
  | returnDataCopy => "RETURNDATACOPY"
  | extCodeHash => "EXTCODEHASH"
  | blockHash => "BLOCKHASH"
  | coinbase => "COINBASE"
  | timestamp => "TIMESTAMP"
  | number => "NUMBER"
  | difficulty => "DIFFICULTY"
  | gasLimit => "GASLIMIT"
  | create => "CREATE"
  | call => "CALL"
  | callCode => "CALLCODE"
  | delegateCall => "DELEGATECALL"
  | create2 => "CREATE2"
  | staticCall => "STATICCALL"
  | selfDestruct => "SELFDESTRUCT"

/-- The name in listings. -/
def Instruction.mnemonic : Instruction → String
  | stop => "STOP"
  | binary op => op.mnemonic
  | unary op => op.mnemonic
  | query op => op.mnemonic
  | callDataLoad => "CALLDATALOAD"
  | pop => "POP"
  | memoryLoad => "MLOAD"
  | memoryStore => "MSTORE"
  | memoryStoreByte => "MSTORE8"
  | storageLoad => "SLOAD"
  | storageStore => "SSTORE"
  | jump => "JUMP"
  | jumpIf => "JUMPI"
  | jumpDestination => "JUMPDEST"
  | push size => "PUSH" ++ toString size
  | dup n => "DUP" ++ toString n
  | swap n => "SWAP" ++ toString n
  | log topics => "LOG" ++ toString topics
  | halt => "RETURN"
  | revert => "REVERT"
  | invalid => "INVALID"
  | host op => op.mnemonic

end EvmDispatch
