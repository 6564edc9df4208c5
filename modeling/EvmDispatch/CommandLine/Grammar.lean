import EvmDispatch.CommandLine.Argument

/-!
# Reading a command line

The words of a command line are taken one after the other. An argument is given by its name after
two hyphens, or by its letter after one; letters of arguments without values can be put together. A
value follows its argument as the next word, or in the same word: behind an equals sign, or right
behind a letter. A word that starts with a hyphen is no value, unless it is a negative number for an
argument that may be one; a hyphen alone is a value. After the word of two hyphens nothing may
follow.

The first word that is neither an argument nor a value is the command, or asks for help. What
follows a command is read in the same way; after the word for help may stand what the help is on. An
argument that may stand everywhere and is given on both sides counts as it is given after the
command.
-/

namespace EvmDispatch.CommandLine

/-- The arguments that have been given, each with its value, in their order. An argument without a
value has the empty one. -/
abbrev Given := List (Argument × String)

/-- The values given for an argument. -/
def Given.values (g : Given) (a : Argument) : List String :=
  (g.filter (·.1 == a)).map (·.2)

/-- The value given for an argument. -/
def Given.value? (g : Given) (a : Argument) : Option String := (g.values a).head?

/-- Whether an argument has been given. -/
def Given.has (g : Given) (a : Argument) : Bool := g.any (·.1 == a)

/-- An argument whose value is not settled yet. -/
inductive Pending where
  /-- There is none. -/
  | nothing
  /-- The value has not come yet. -/
  | waiting (a : Argument)
  /-- The value has come as a word of its own. -/
  | unsettled (a : Argument) (value : String)

/-- What has been read of one part of a command line. -/
structure Draft where
  /-- The arguments that are settled. -/
  given : Given := []
  /-- The argument that is not. -/
  pending : Pending := .nothing

/-- What a word has led to. -/
inductive Reaction where
  /-- To go on. -/
  | proceed (d : Draft)
  /-- To show the version. -/
  | version
  /-- To show help. -/
  | help
  /-- To complain. -/
  | misuse

namespace Draft

/-- Settles an argument with its value. -/
def add? (d : Draft) (a : Argument) (value : String) : Option Draft :=
  if a.admits value && (a.isRepeatable || !d.given.has a) then
    some { given := d.given ++ [(a, value)], pending := .nothing }
  else none

/-- Settles the argument that is pending. -/
def settle? (d : Draft) : Option Draft :=
  match d.pending with
  | .nothing => some d
  | .waiting _ => none
  | .unsettled a value => d.add? a value

/-- The argument that waits for its value. -/
def waiting? (d : Draft) : Option Argument :=
  match d.pending with
  | .waiting a => some a
  | _ => none

/-- Goes on with a draft, if there is one. -/
def proceed : Option Draft → Reaction
  | some d => .proceed d
  | none => .misuse

/-- Takes an argument together with its value. -/
def attach (d : Draft) (a : Argument) (value : List Char) : Reaction :=
  proceed do (← d.settle?).add? a (String.ofList value)

/-- Takes an argument whose value is to follow. -/
def await (d : Draft) (a : Argument) : Reaction :=
  proceed do some { (← d.settle?) with pending := .waiting a }

/-- Takes an argument without value. -/
def flag (d : Draft) (a : Argument) : Reaction :=
  match d.settle? with
  | none => .misuse
  | some d =>
    match a with
    | .version => .version
    | .help => .help
    | a => proceed (d.add? a "")

end Draft

/-- Takes the rest of a word after two hyphens. -/
def takeLong (s : Scope) (d : Draft) (word : List Char) : Reaction :=
  match s.long? (word.takeWhile (· != '=')), word.dropWhile (· != '=') with
  | none, _ => .misuse
  | some a, [] => if a.takesValue then d.await a else d.flag a
  | some a, _ :: value => if a.takesValue then d.attach a value else .misuse

/-- Takes the rest of a word after one hyphen. -/
def takeShort (s : Scope) (d : Draft) : List Char → Reaction
  | [] => .proceed d
  | letter :: rest =>
    match s.short? letter with
    | none => .misuse
    | some a =>
      if a.takesValue then
        match rest with
        | [] => d.await a
        | '=' :: value => d.attach a value
        | value => d.attach a value
      else
        match d.flag a with
        | .proceed d => takeShort s d rest
        | reaction => reaction

/-- Whether the rest of a word after one hyphen is a number. -/
def isNumber (word : List Char) : Bool := (Text.digitsValue? word).isSome

/-- Takes a word that starts with hyphens, and nothing else. -/
def takeHyphened (s : Scope) (d : Draft) (word : List Char) : Reaction :=
  match word with
  | '-' :: '-' :: rest => takeLong s d rest
  | _ :: rest =>
    match d.waiting? with
    | some a =>
      if a.allowsNegative && isNumber rest then
        .proceed { d with pending := .unsettled a (String.ofList word) }
      else takeShort s d rest
    | none => takeShort s d rest
  | [] => .misuse

/-- Whether a word starts with a hyphen and does not end there. -/
def isHyphened : List Char → Bool
  | '-' :: _ :: _ => true
  | _ => false

/-- How one part of a command line ends. -/
inductive PartEnd where
  /-- With its last word. -/
  | finished (given : Given)
  /-- With the name of a command. -/
  | command (d : Draft) (s : Scope) (rest : List String)
  /-- With the wish to see the version. -/
  | version
  /-- With the wish to see help. -/
  | help
  /-- With a mistake. -/
  | misuse

/-- The end of a part without more words. -/
def finish (d : Draft) : PartEnd :=
  match d.settle? with
  | some d => .finished d.given
  | none => .misuse

/-- Whether there is help on what follows the word that asks for it: on nothing in particular, or on
one command. -/
def isHelpTopic : List String → Bool
  | [] => true
  | [topic] => (Scope.command? topic).isSome || topic == "help"
  | _ => false

/-- Reads one part of a command line. -/
def readPart (s : Scope) (d : Draft) : List String → PartEnd
  | [] => finish d
  | word :: rest =>
    if word == "--" then
      if rest.isEmpty then finish d else .misuse
    else if isHyphened word.toList then
      match takeHyphened s d word.toList with
      | .proceed d => readPart s d rest
      | .version => .version
      | .help => .help
      | .misuse => .misuse
    else
      match d.waiting? with
      | some a => readPart s { d with pending := .unsettled a word } rest
      | none =>
        if s = .top then
          match Scope.command? word with
          | some command => .command d command rest
          | none => if word == "help" && isHelpTopic rest then .help else .misuse
        else .misuse

/-- What a command line asks for. -/
inductive Invocation where
  /-- To run code. -/
  | run (given : Given)
  /-- To list the backends. -/
  | list (given : Given)
  /-- To show the version, in front of a command or after it. -/
  | version (s : Scope)
  /-- To show help. -/
  | help
  /-- Nothing that makes sense. -/
  | misuse

/-- The arguments of both parts. Those given after the command replace those in front of it. -/
def merge (before after : Given) : Given :=
  before.filter (fun g => !after.has g.1) ++ after

/-- What a command asks for, given the arguments. -/
def invoke (s : Scope) (given : Given) : Invocation :=
  match s with
  | .run => if given.has .code && given.has .codeFile then .misuse else .run given
  | .list => .list given
  | .top => .misuse

/-- Reads a command line. -/
def read (words : List String) : Invocation :=
  match readPart .top {} words with
  | .command d s rest =>
    match readPart s {} rest, d.settle? with
    | .version, _ => .version s
    | .help, _ => .help
    | .finished after, some d => invoke s (merge d.given after)
    | _, _ => .misuse
  | .version => .version .top
  | .help => .help
  | _ => .misuse

end EvmDispatch.CommandLine
