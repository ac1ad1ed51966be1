/-!
Switches and operands on a command line.
-/

namespace DeclScribe.Command

/-- A switch: its long name, its letter where it has one, and whether it takes a value. -/
structure Switch where
  name : String
  letter : Option Char := none
  takesValue : Bool := true
deriving DecidableEq, Repr

/-- What an argument looks like. A dash alone is an operand. -/
inductive Form where
  /-- `--` -/
  | divider
  /-- `--name`, maybe with a value behind `=` -/
  | long (body : List Char)
  /-- `-x`, maybe with a value behind it -/
  | short (letter : Char) (body : List Char)
  | operand
deriving DecidableEq, Repr

def Form.of (arg : String) : Form :=
  match arg.toList with
  | ['-', '-'] => .divider
  | '-' :: '-' :: body => .long body
  | '-' :: letter :: body => .short letter body
  | _ => .operand

/-- A part of a command line. The value of a switch that takes none is empty. -/
inductive Item where
  | divider
  | switch (name : String) (value : String)
  | operand (text : String)
deriving DecidableEq, Repr

/-- The switch of a long name, and the value that is written with it. -/
def longSwitch? (switches : List Switch) (body : List Char) :
    Option (Switch × Option String) := do
  let name := String.ofList (body.takeWhile (· ≠ '='))
  let s ← switches.find? (·.name == name)
  match body.dropWhile (· ≠ '=') with
  | [] => return (s, none)
  | _ :: value => if s.takesValue then return (s, some (String.ofList value)) else none

def shortSwitch? (switches : List Switch) (letter : Char) (body : List Char) :
    Option (Switch × Option String) := do
  let s ← switches.find? (·.letter == some letter)
  match body with
  | [] => return (s, none)
  | '=' :: value => if s.takesValue then return (s, some (String.ofList value)) else none
  | value => if s.takesValue then return (s, some (String.ofList value)) else none

/-- Completes a switch that lacks its value by the argument behind it. -/
def complete? (rest : List String) : Switch × Option String → Option (Item × List String)
  | (s, some value) => some (.switch s.name value, rest)
  | (s, none) =>
    if s.takesValue then
      match rest with
      | value :: rest =>
        if Form.of value = .operand then some (.switch s.name value, rest) else none
      | [] => none
    else some (.switch s.name "", rest)

def next? (switches : List Switch) : List String → Option (Item × List String)
  | [] => none
  | arg :: rest =>
    match Form.of arg with
    | .divider => some (.divider, rest)
    | .operand => some (.operand arg, rest)
    | .long body => (longSwitch? switches body).bind (complete? rest)
    | .short letter body => (shortSwitch? switches letter body).bind (complete? rest)

theorem length_le_of_complete? {rest after : List String} {given : Switch × Option String}
    {item : Item} (h : complete? rest given = some (item, after)) :
    after.length ≤ rest.length := by
  unfold complete? at h
  split at h
  · simp only [Option.some.injEq, Prod.mk.injEq] at h
    simp [h.2]
  · split at h
    · split at h
      · split at h
        · simp only [Option.some.injEq, Prod.mk.injEq] at h
          simp [h.2]
        · simp at h
      · simp at h
    · simp only [Option.some.injEq, Prod.mk.injEq] at h
      simp [h.2]

/-- Every item takes an argument. -/
theorem length_lt_of_next? {switches : List Switch} {args after : List String} {item : Item}
    (h : next? switches args = some (item, after)) : after.length < args.length := by
  unfold next? at h
  split at h
  · simp at h
  · split at h
    · simp only [Option.some.injEq, Prod.mk.injEq] at h
      simp [h.2]
    · simp only [Option.some.injEq, Prod.mk.injEq] at h
      simp [h.2]
    · obtain ⟨given, _, hc⟩ := Option.bind_eq_some_iff.mp h
      exact Nat.lt_succ_of_le (length_le_of_complete? hc)
    · obtain ⟨given, _, hc⟩ := Option.bind_eq_some_iff.mp h
      exact Nat.lt_succ_of_le (length_le_of_complete? hc)

/-- All items of the arguments. Behind a divider everything is an operand. -/
def items? (switches : List Switch) (args : List String) : Option (List Item) :=
  match _h : next? switches args with
  | none => if args.isEmpty then some [] else none
  | some (.divider, rest) => some (rest.map .operand)
  | some (item, rest) => (items? switches rest).map (item :: ·)
termination_by args.length
decreasing_by exact length_lt_of_next? _h

/-- The switches before the first operand, the operand, and the arguments behind it. -/
def itemsBeforeOperand? (switches : List Switch) (args : List String) :
    Option (List Item × String × List String) :=
  match _h : next? switches args with
  | some (.operand text, rest) => some ([], text, rest)
  | some (.switch name value, rest) =>
    (itemsBeforeOperand? switches rest).map fun (items, found) =>
      (.switch name value :: items, found)
  | _ => none
termination_by args.length
decreasing_by exact length_lt_of_next? _h

def operands (items : List Item) : List String :=
  items.filterMap fun | .operand text => some text | _ => none

def valuesOf (s : Switch) (items : List Item) : List String :=
  items.filterMap fun
    | .switch name value => if name = s.name then some value else none
    | _ => none

/-- The value of a switch that may be given once. -/
def valueOf? (s : Switch) (items : List Item) : Option (Option String) :=
  match valuesOf s items with
  | [] => some none
  | [value] => some (some value)
  | _ => none

end DeclScribe.Command
