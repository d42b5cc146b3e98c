import CodeGraph.Text.Cut
import CodeGraph.Text.Digit

/-!
# Options on a command line

Options are given by an ordered table of names.  A long name may be cut short as long as one name
remains, and may carry its value after an equals sign; single letters may be written together, the
last of them with its value.  `tokens` tells what each argument is, and `uses` which options one
argument spells out.
-/

namespace CodeGraph.Command

open CodeGraph.Text

/-- An option: its names with their dashes, and what it stands for. -/
structure CommandOption (κ : Type) where
  names : List (List Char)
  key : κ
  takesValue : Bool

/-- The name of an option on the command line, and what is attached to it. -/
structure Spelling (κ : Type) where
  key : κ
  takesValue : Bool
  /-- The name has two dashes. -/
  isLong : Bool
  /-- The text attached to the name. -/
  attached : Option (List Char)

/-- What an argument is. -/
inductive Token (κ : Type) where
  | operand
  | option (spelling : Spelling κ)
  /-- It looks like an option and is none. -/
  | unknown
  /-- Two dashes; no option comes after them. -/
  | separator

section

variable {κ : Type}

/-! ## Recognising options -/

/-- All names of a table with their options. -/
def namesOf (table : List (CommandOption κ)) : List (List Char × CommandOption κ) :=
  table.flatMap fun o => o.names.map fun name => (name, o)

/-- The option of a name. -/
def named? (table : List (CommandOption κ)) (name : List Char) : Option (CommandOption κ) :=
  ((namesOf table).find? fun (n, _) => n = name).map Prod.snd

/-- The text starts with two dashes. -/
def hasLongForm (text : List Char) : Bool := ['-', '-'].isPrefixOf text

/-- A text before and behind its first equals sign. -/
def atEquals (text : List Char) : List Char × Option (List Char) :=
  match text.dropWhile (· ≠ '=') with
  | [] => (text, none)
  | _ :: value => (text.takeWhile (· ≠ '='), some value)

/-- The options that a text with two dashes may be cut short from. -/
def longForms (table : List (CommandOption κ)) (text : List Char) : List (Spelling κ) :=
  let (start, value) := atEquals text
  ((namesOf table).filter fun (name, _) => start.isPrefixOf name).map fun (_, o) =>
    ⟨o.key, o.takesValue, true, value⟩

/-- The options that a text with one dash may start with. -/
def shortForms (table : List (CommandOption κ)) (text : List Char) : List (Spelling κ) :=
  (named? table (text.take 2)).toList.map fun o =>
    ⟨o.key, o.takesValue, false, some (text.drop 2)⟩

/-- Digits, or digits around a point that has some behind it. -/
def isUnsigned (text : List Char) : Bool :=
  let digits := text.takeWhile fun c => (digit? c).isSome
  match text.drop digits.length with
  | [] => digits ≠ []
  | '.' :: rest => rest ≠ [] && rest.all fun c => (digit? c).isSome
  | _ => false

/-- A negative number, which may end in a line feed. -/
def isNegativeNumber : List Char → Bool
  | '-' :: rest =>
    isUnsigned rest || (rest.getLast? = some '\n' && isUnsigned rest.dropLast)
  | _ => false

/-- The option whose whole name a text is, with or without an equals sign and a value. -/
def wholeName? (table : List (CommandOption κ)) (text : List Char) : Option (Spelling κ) :=
  match named? table text with
  | some o => some ⟨o.key, o.takesValue, hasLongForm text, none⟩
  | none =>
    let (name, value) := atEquals text
    if value.isSome then
      (named? table name).map fun o => ⟨o.key, o.takesValue, hasLongForm name, value⟩
    else none

/-- What an argument is; none if it may stand for several options. -/
def token? (table : List (CommandOption κ)) (text : List Char) : Option (Token κ) :=
  match text with
  | '-' :: _ :: _ =>
    match wholeName? table text with
    | some spelling => some (.option spelling)
    | none =>
      match if hasLongForm text then longForms table text else shortForms table text with
      | [spelling] => some (.option spelling)
      | _ :: _ :: _ => none
      | [] =>
        if isNegativeNumber text || text.contains ' ' then some .operand else some .unknown
  | _ => some .operand

/-- What the arguments are; none if one of them may stand for several options. -/
def tokens (table : List (CommandOption κ)) :
    List String → Option (List (String × Token κ))
  | [] => some []
  | text :: rest =>
    if text = "--" then some ((text, .separator) :: rest.map fun t => (t, .operand))
    else
      match token? table text.toList with
      | none => none
      | some token => (tokens table rest).map ((text, token) :: ·)

/-! ## Spelling options out -/

/-- What the arguments say, in order. -/
inductive Event (κ : Type) where
  /-- An option with its value. -/
  | option (key : κ) (value : String)
  | operand (text : String)
  /-- An argument that there is no place for. -/
  | extra (text : String)
  /-- The arguments cannot be understood from here on. -/
  | misuse

/-- The text of an argument that can be the value of the option before it. -/
def valueIn : List (String × Token κ) → Option String
  | (text, .operand) :: _ => some text
  | _ => none

/-- The options that a letter and the text behind it spell out, and whether the last of them takes
the next argument as its value; none if they cannot be understood.  Behind a letter without a value
come further letters. -/
def usesOfLetters (table : List (CommandOption κ)) (next : Option String) (key : κ)
    (takesValue : Bool) : List Char → Option (List (Event κ) × Bool)
  | [] =>
    if takesValue then next.map fun value => ([.option key value], true)
    else some ([.option key ""], false)
  | c :: rest =>
    if takesValue then some ([.option key (String.ofList (c :: rest))], false)
    else
      (named? table ['-', c]).bind fun o =>
        (usesOfLetters table next o.key o.takesValue rest).map fun (events, taken) =>
          (.option key "" :: events, taken)

/-- The options that a spelling stands for, and whether the next argument is a value; none if they
cannot be understood.  An equals sign does not keep letters apart. -/
def Spelling.uses (table : List (CommandOption κ)) (next : Option String) (s : Spelling κ) :
    Option (List (Event κ) × Bool) :=
  match s.attached with
  | none => usesOfLetters table next s.key s.takesValue []
  | some text =>
    if s.takesValue then some ([.option s.key (String.ofList text)], false)
    else if s.isLong || text.isEmpty then none
    else usesOfLetters table next s.key false text

end

end CodeGraph.Command
