import TextTemplate.Value

/-! Values as objects. A program keeps them at addresses, and one object may be a part of several
others. Comparison asks what objects hold, except for a part that it meets on both sides: an object
stands for itself there, even if it holds what is no number. A set compares objects of one hash
only. -/

namespace TextTemplate

inductive ScalarType where
  | text
  | integer
  | real
  | truth
  deriving DecidableEq

namespace Scalar

def type : Scalar → ScalarType
  | text _ => .text
  | integer _ => .integer
  | real _ => .real
  | truth _ => .truth

end Scalar

/-- What is kept at an address. The parts of an object are there before it. -/
inductive Cell (address : Nat) where
  | scalar (data : Scalar)
  | sequence (items : List (Fin address))
  | record (fields : NameMap (Fin address)) (distinct : fields.names.Nodup)
  | absent

namespace Cell

def kind {address : Nat} : Cell address → ValueKind
  | scalar _ => .scalar
  | sequence _ => .sequence
  | record .. => .record
  | absent => .absent

end Cell

def Memory : Type := (address : Nat) → Cell address

/-- How data are hashed. What is no number is hashed by the address it is at. -/
structure Hashing where
  Code : Type
  sameCode : DecidableEq Code
  tuple : List Code → Code
  type : ScalarType → Code
  text : String → Code
  integer : Int → Code
  real : Nat → Float → Code
  truth : Bool → Code
  absent : Code
  real_eq_of_beq : ∀ a b x y, (x == y) = true → real a x = real b y

attribute [instance] Hashing.sameCode

namespace Hashing

def data (hashing : Hashing) (address : Nat) : Scalar → hashing.Code
  | .text s => hashing.text s
  | .integer n => hashing.integer n
  | .real x => hashing.real address x
  | .truth b => hashing.truth b

end Hashing

namespace Memory

/-- The value that an object stands for. -/
def read (m : Memory) (a : Nat) : Value :=
  match m a with
  | .scalar x => .scalar x
  | .sequence items => .sequence (items.map fun (x : Fin a) => m.read x)
  | .record fields _ => .record (fields.map fun field => (field.1, m.read field.2))
  | .absent => .absent
termination_by a
decreasing_by all_goals exact Fin.isLt _

section Read

variable {m : Memory} {a : Nat} {x : Scalar} {items : List (Fin a)} {fields : NameMap (Fin a)}
  {distinct : fields.names.Nodup}

theorem read_of_scalar (h : m a = .scalar x) : m.read a = .scalar x := by
  rw [read, h]

theorem read_of_sequence (h : m a = .sequence items) :
    m.read a = .sequence (items.map fun (x : Fin a) => m.read x) := by
  rw [read, h]

theorem read_of_record (h : m a = .record fields distinct) :
    m.read a = .record (fields.map fun field => (field.1, m.read field.2)) := by
  rw [read, h]

theorem read_of_absent (h : m a = .absent) : m.read a = .absent := by
  rw [read, h]

end Read

/-- There is one object for what is absent. -/
def equal (m : Memory) (a b : Nat) : Bool :=
  match m a, m b with
  | .scalar x, .scalar y => x.equal y
  | .sequence xs, .sequence ys =>
    xs.length == ys.length && (xs.zip ys).all fun (x, y) => x.val == y.val || m.equal x y
  | .record fs _, .record gs _ =>
    fs.length == gs.length && fs.all fun (name, x) =>
      match gs.get? name with
      | some y => x.val == y.val || m.equal x y
      | none => false
  | .absent, .absent => true
  | _, _ => false
termination_by a
decreasing_by all_goals exact Fin.isLt _

/-- Whether two objects are the same as parts of others, or as elements of a set. -/
def same (m : Memory) (a b : Nat) : Bool :=
  a == b || m.equal a b

/-- A record is compared without the order of its fields, but hashed with it. -/
def hash (m : Memory) (hashing : Hashing) (a : Nat) : hashing.Code :=
  match m a with
  | .scalar x => hashing.tuple [hashing.type x.type, hashing.data a x]
  | .sequence items => hashing.tuple [hashing.tuple (items.map fun (x : Fin a) => m.hash hashing x)]
  | .record fields _ =>
    hashing.tuple (fields.map fun field =>
      hashing.tuple [hashing.text field.1, m.hash hashing field.2])
  | .absent => hashing.absent
termination_by a
decreasing_by all_goals exact Fin.isLt _

section Hash

variable {m : Memory} {hashing : Hashing} {a : Nat} {x : Scalar} {items : List (Fin a)}
  {fields : NameMap (Fin a)} {distinct : fields.names.Nodup}

theorem hash_of_scalar (h : m a = .scalar x) :
    m.hash hashing a = hashing.tuple [hashing.type x.type, hashing.data a x] := by
  rw [hash, h]

theorem hash_of_sequence (h : m a = .sequence items) : m.hash hashing a =
    hashing.tuple [hashing.tuple (items.map fun (x : Fin a) => m.hash hashing x)] := by
  rw [hash, h]

theorem hash_of_record (h : m a = .record fields distinct) : m.hash hashing a =
    hashing.tuple (fields.map fun field =>
      hashing.tuple [hashing.text field.1, m.hash hashing field.2]) := by
  rw [hash, h]

theorem hash_of_absent (h : m a = .absent) : m.hash hashing a = hashing.absent := by
  rw [hash, h]

end Hash

/-- Whether a set that holds the second object takes the first one to be in it. -/
def merges (m : Memory) (hashing : Hashing) (a b : Nat) : Bool :=
  m.hash hashing a == m.hash hashing b && m.same a b

/-- The elements of a set that the objects are put into one by one. -/
def distinct (m : Memory) (hashing : Hashing) (objects : List Nat) : List Nat :=
  objects.foldl (fun found a => if found.any (m.merges hashing a) then found else found ++ [a]) []

end Memory

/-- Codes that keep what they are made of. -/
inductive SymbolicCode where
  | number (n : Int)
  | text (s : String)
  | empty
  | pair (first rest : SymbolicCode)
  deriving DecidableEq

namespace Hashing

/-- Only real numbers share their codes. -/
def symbolic : Hashing where
  Code := SymbolicCode
  sameCode := inferInstance
  tuple := List.foldr .pair .empty
  type
    | .text => .number 0
    | .integer => .number 1
    | .real => .number 2
    | .truth => .number 3
  text := .text
  integer := .number
  real _ _ := .empty
  truth b := .number b.toInt
  absent := .empty
  real_eq_of_beq _ _ _ _ _ := rfl

end Hashing

end TextTemplate
