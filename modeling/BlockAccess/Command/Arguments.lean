import BlockAccess.Journal

/-!
# The command line

The arguments are options and operands.  Options may stand before and after the errand, which is the
first argument that is no option; whatever follows the options behind it is an operand.  An option
that takes a value and is the last argument is no option, and empty arguments do not count as an
errand.

Numbers on the command line are unsigned and have 64 bits.  They may follow white space and a plus
sign, and a minus sign is refused where it is the first character.
-/

namespace BlockAccess.Command

/-- Lower case of an ASCII letter; every other byte stays. -/
def lower (c : UInt8) : UInt8 := if 65 ≤ c && c ≤ 90 then c + 32 else c

/-- Whether an argument is an option, in either case. -/
def isOption (argument option : Text) : Bool := argument.map lower == option

/-- A number on the command line. -/
def number? (t : Text) : Option UInt64 :=
  match Text.untilNul t with
  | [] => none
  | c :: r => if c = 45 then none else (Numeral.whole? (c :: r)).bind Numeral.toUInt64?

/-- A range `offset:length` on the command line. -/
def range? (t : Text) : Option (UInt64 × UInt64) :=
  match Text.splitFirst 58 t with
  | none => none
  | some (offset, length) =>
    match number? offset, number? length with
    | some o, some l => some (o, l)
    | _, _ => none

/-- The arguments, sorted out. -/
structure Arguments where
  /-- What is to be done. -/
  errand : Text := []
  /-- The properties file; empty if there is none. -/
  properties : Text := []
  verbose : Bool := false
  /-- The range to read in place of the whole block. -/
  range : Option (UInt64 × UInt64) := none
  operands : List Text := []
  deriving DecidableEq, Repr

namespace Arguments

/-- Goes through the arguments; `none` if a range is malformed. -/
def scan (a : Arguments) : List Text → Option Arguments
  | [] => some a
  | [x] =>
    if isOption x (text "-v") then some { a with verbose := true }
    else if a.errand.isEmpty then some { a with errand := x }
    else some { a with operands := [x] }
  | x :: y :: rest =>
    if isOption x (text "-v") then scan { a with verbose := true } (y :: rest)
    else if isOption x (text "-c") then scan { a with properties := y } rest
    else if isOption x (text "-p") then
      match range? y with
      | none => none
      | some r => scan { a with range := some r } rest
    else if a.errand.isEmpty then scan { a with errand := x } (y :: rest)
    else some { a with operands := x :: y :: rest }

/-- The least level of the notices that are to be shown. -/
def level (a : Arguments) : Level := if a.verbose then .debug else .info

end Arguments

/-- What the command is asked to copy. -/
inductive Errand where
  | localBlock
  | remoteBlock (address : Address)
  deriving DecidableEq, Repr

/-- The errand of the arguments, and the operands behind it; `none` if there is no such errand. -/
def errand? (a : Arguments) : Option (Errand × List Text) :=
  if a.errand = text "remote" then
    match a.operands with
    | [] => none
    | address :: rest => (Address.parse? address).map fun x => (.remoteBlock x, rest)
  else if a.errand = text "local" then some (.localBlock, a.operands)
  else none

/-- The block, its length and the output file that three operands name. -/
def numbers? (block length output : Text) : Option (UInt64 × UInt64 × Text) :=
  match number? block, number? length with
  | some b, some l => some (b, l, output)
  | _, _ => none

/-- The block, its length and the output file that the operands name.  Without an output file its
path is empty. -/
def operands? : List Text → Option (UInt64 × UInt64 × Text)
  | [block, length] => numbers? block length []
  | [block, length, output] => numbers? block length output
  | _ => none

end BlockAccess.Command
