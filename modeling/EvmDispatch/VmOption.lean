import EvmDispatch.Text.Quoted

/-!
# Options

An option is a name and a value, written with an equals sign between them. Neither is looked at
here: each backend decides for itself which options it accepts. Lists of options keep their order
and their repetitions.
-/

namespace EvmDispatch

/-- An option for a backend. -/
structure VmOption where
  /-- The name. -/
  name : String
  /-- The value. -/
  value : String
deriving DecidableEq, Repr

namespace VmOption

/-- A text that is no option. -/
structure MissingSeparator where
  /-- The text as it was given. -/
  text : String
deriving DecidableEq, Repr

/-- The message that a user sees. -/
def MissingSeparator.message (e : MissingSeparator) : String :=
  "invalid VM option '" ++ e.text ++ "': expected <name>=<value>"

/-- The stable code of the error. -/
def MissingSeparator.code (_ : MissingSeparator) : String := "OPT_001"

/-- The kind of error, as it is reported with the code. -/
def MissingSeparator.category (_ : MissingSeparator) : String := "option"

/-- Reads an option. The first equals sign separates the name from the value. -/
def parse (text : String) : Except MissingSeparator VmOption :=
  let name := text.toList.takeWhile (· != '=')
  match text.toList.dropWhile (· != '=') with
  | _ :: value => .ok { name := String.ofList name, value := String.ofList value }
  | [] => .error ⟨text⟩

/-- Reads options up to the first text that is none. -/
def parseAll : List String → Except MissingSeparator (List VmOption)
  | [] => .ok []
  | text :: rest => do
    let option ← parse text
    let options ← parseAll rest
    return option :: options

/-- The written form. -/
def text (o : VmOption) : String := o.name ++ "=" ++ o.value

/-- The form that a developer sees. -/
def debugText (o : VmOption) : String :=
  "VmOption \x7b name: " ++ Text.quoted o.name ++ ", value: " ++ Text.quoted o.value ++ " \x7d"

/-- The form of a list of options that a developer sees. -/
def listDebugText (options : List VmOption) : String :=
  "OptionList \x7b options: [" ++ ", ".intercalate (options.map debugText) ++ "] \x7d"

end VmOption

end EvmDispatch
