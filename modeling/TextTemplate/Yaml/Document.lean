import TextTemplate.Settings
import TextTemplate.Yaml.Node
import TextTemplate.Yaml.Scalar

/-! YAML documents as data. A key stands once in its mapping. Of a key `<<` the value is one or more
mappings, whose entries are merged into the mapping around it. -/

namespace TextTemplate.Yaml

/-- Why a text gives no data: it is no document, a scalar has no value, or a key has a type that
keys cannot have. -/
inductive Fault where
  | malformed
  | scalar (fault : ScalarFault)
  | unusableKey (typeName : String)
  deriving DecidableEq

namespace Fault

def toLoadFault : Fault → LoadFault
  | malformed => .malformed
  | scalar fault => .raised ⟨"ValueError", fault.message⟩
  | unusableKey typeName => .raised ⟨"TypeError", s!"unhashable type: '{typeName}'"⟩

end Fault

abbrev Reading := Except Fault

/-- A node with its scalars evaluated and its merges carried out. Keys are free to repeat where
entries were merged. -/
inductive Content where
  | leaf (datum : Reading Datum)
  | sequence (items : List Content)
  | mapping (entries : List (Content × Content)) (merged : Bool)
  | broken

namespace Content

def entries? : Content → Option (List (Content × Content))
  | mapping entries _ => some entries
  | _ => none

/-- The entries that a merge key with this value stands for. Of several mappings the first one
wins. -/
def mergedEntries? : Content → Option (List (Content × Content))
  | mapping entries _ => some entries
  | sequence items => (items.mapM entries?).map fun all => all.reverse.flatten
  | _ => none

def isMergeKey : Node → Bool
  | .scalar text plain => plain && text == "<<"
  | _ => false

/-- The merged entries and the others, of which `<<` has no second one with entries to merge. -/
def splitMerges (merged own : List (Content × Content)) :
    List (Bool × Content × Content) → Option (List (Content × Content) × List (Content × Content))
  | [] => some (merged, own.reverse)
  | (false, entry) :: rest => splitMerges merged (entry :: own) rest
  | (true, entry) :: rest =>
    if merged.isEmpty then
      match mergedEntries? entry.2 with
      | some merged => splitMerges merged own rest
      | none => none
    else none

def ofEntries (entries : List (Bool × Content × Content)) : Content :=
  match splitMerges [] [] entries with
  | none => broken
  | some (merged, own) => mapping (merged ++ own) (!merged.isEmpty)

/-- A scalar as an item or a value. The marks of merges and defaults stand for nothing there. -/
def ofScalar (text : String) (plain : Bool) : Content :=
  if !plain then leaf (.ok (.text text))
  else if text == "<<" || text == "=" then leaf (.error .malformed)
  else leaf ((plainDatum text).mapError .scalar)

mutual

def ofNode : Node → Content
  | .scalar text plain => ofScalar text plain
  | .sequence items => sequence (ofItems items)
  | .mapping entries => ofEntries (ofMapping entries)

def ofItems : List Node → List Content
  | [] => []
  | item :: rest => ofNode item :: ofItems rest

def ofMapping : List (Node × Node) → List (Bool × Content × Content)
  | [] => []
  | (key, item) :: rest =>
    let keyContent := if key matches .scalar "=" true then leaf (.ok (.text "=")) else ofNode key
    (isMergeKey key, keyContent, ofNode item) :: ofMapping rest

end

/-- A key as the entry of a mapping has it. A mapping cannot be one. -/
def keyOf : Datum → Reading Datum
  | .map _ => .error .malformed
  | .list items => .ok (.tuple items)
  | d => .ok d

def addEntry (merged : Bool) (entries : List (Datum × Datum)) (key item : Datum) :
    Reading (List (Datum × Datum)) :=
  match Datum.unusableIn? key with
  | some typeName => .error (.unusableKey typeName)
  | none =>
    if merged then .ok (Datum.putEntry key item entries)
    else if entries.any fun entry => Datum.sameKey entry.1 key then .error .malformed
    else .ok (entries ++ [(key, item)])

/-- A fault, and the level of the collection in which it turns up. Collections are filled level by
level. -/
abbrev Late := Nat × Fault

def earlier (pending : Option Late) (fault : Late) : Option Late :=
  match pending with
  | some p => if fault.1 < p.1 then some fault else some p
  | none => some fault

/-- A part of a collection at `level`. Its fault ends the filling at once, or is kept until the
level is done. -/
def part (level : Nat) (pending : Option Late) (result : Except Late Datum) :
    Except Late (Datum × Option Late) :=
  match result with
  | .ok d => .ok (d, pending)
  | .error fault =>
    if fault.1 ≤ level then .error fault else .ok (.null, earlier pending fault)

def settled {α : Type} (pending : Option Late) (x : α) : Except Late α :=
  match pending with
  | some fault => .error fault
  | none => .ok x

def isLeaf : Content → Bool
  | leaf _ => true
  | _ => false

mutual

/-- The datum of a content at `level`. What stands in a key is filled at once. -/
def datum (inKey : Bool) (level : Nat) : Content → Except Late Datum
  | leaf d => d.mapError fun fault => (level, fault)
  | broken => .error (level, .malformed)
  | sequence items => do
    let items ← itemData inKey level none items
    return .list items
  | mapping entries merged => do
    let entries ← entryData inKey level merged none [] entries
    return .map entries

def itemData (inKey : Bool) (level : Nat) (pending : Option Late) :
    List Content → Except Late (List Datum)
  | [] => settled pending []
  | item :: rest => do
    let inner := if inKey || item.isLeaf then level else level + 1
    let (d, pending) ← part level pending (datum inKey inner item)
    let others ← itemData inKey level pending rest
    return d :: others

def entryData (inKey : Bool) (level : Nat) (merged : Bool) (pending : Option Late)
    (done : List (Datum × Datum)) :
    List (Content × Content) → Except Late (List (Datum × Datum))
  | [] => settled pending done
  | (key, item) :: rest => do
    let inner := if inKey || item.isLeaf then level else level + 1
    let k ← datum true level key
    let k ← (keyOf k).mapError fun fault => (level, fault)
    let (v, pending) ← part level pending (datum inKey inner item)
    let done ← (addEntry merged done k v).mapError fun fault => (level, fault)
    entryData inKey level merged pending done rest

end

end Content

def isForbidden (c : Char) : Bool :=
  let code := c.toNat
  (code < 0x20 && code != 0x9 && code != 0xA && code != 0xD) || code == 0x7F ||
    (0x80 ≤ code && code < 0xA0 && code != 0x85) || code == 0xFFFE || code == 0xFFFF

def normalizeLines : List Char → List Char
  | '\r' :: '\n' :: rest => '\n' :: normalizeLines rest
  | '\r' :: rest => '\n' :: normalizeLines rest
  | c :: rest => c :: normalizeLines rest
  | [] => []

/-- The data of the one document of a text; an empty text holds nothing. -/
def read (text : String) : Reading Datum :=
  let cs := normalizeLines text.toList
  if cs.any isForbidden then .error .malformed
  else
    match Node.ofText (if cs.head? = some '\uFEFF' then cs.drop 1 else cs) with
    | none => .error .malformed
    | some none => .ok .null
    | some (some node) => ((Content.ofNode node).datum false 0).mapError Prod.snd

def load : Loader :=
  fun text => (read text).mapError Fault.toLoadFault

end TextTemplate.Yaml
