import TextTemplate.Yaml.Token

/-! The nodes of a YAML document: scalars, sequences and mappings as they are written. -/

namespace TextTemplate.Yaml

inductive Node where
  | scalar (text : String) (plain : Bool)
  | sequence (items : List Node)
  | mapping (entries : List (Node × Node))

namespace Node

/-- What is left out stands as plain text without characters. -/
def empty : Node := scalar "" true

mutual

/-- A node. Where blocks are allowed it may be a block collection, and behind a key also a sequence
whose dashes stand at the indentation of the key. -/
def read (blocks dashes : Bool) (s : Supply) : Nat → Option (Node × Supply)
  | 0 => none
  | fuel + 1 => do
    let (t, s) ← s.peek
    match t with
    | .scalar text plain => return (.scalar text plain, s.drop)
    | .openSquare => bracketedItems true [] s.drop fuel
    | .openCurly => bracketedEntries true [] s.drop fuel
    | .dash => if dashes then indentlessItems [] s fuel else none
    | .blockSequence => if blocks then blockItems [] s.drop fuel else none
    | .blockMapping => if blocks then blockEntries [] s.drop fuel else none
    | _ => none

/-- The items of a block sequence behind those of `done`, which are given latest first. -/
def blockItems (done : List Node) (s : Supply) : Nat → Option (Node × Supply)
  | 0 => none
  | fuel + 1 => do
    let (t, s) ← s.peek
    match t with
    | .dash =>
      let (t, s) ← s.drop.peek
      let (item, s) ←
        if t = .dash ∨ t = .blockEnd then pure (empty, s) else read true false s fuel
      blockItems (item :: done) s fuel
    | .blockEnd => return (.sequence done.reverse, s.drop)
    | _ => none

/-- The items of a sequence that ends with the block around it. -/
def indentlessItems (done : List Node) (s : Supply) : Nat → Option (Node × Supply)
  | 0 => none
  | fuel + 1 => do
    let (t, s) ← s.peek
    match t with
    | .dash =>
      let (t, s) ← s.drop.peek
      let (item, s) ←
        if t = .dash ∨ t = .key ∨ t = .value ∨ t = .blockEnd then pure (empty, s)
        else read true false s fuel
      indentlessItems (item :: done) s fuel
    | _ => return (.sequence done.reverse, s)

/-- The entries of a block mapping behind those of `done`, which are given latest first. -/
def blockEntries (done : List (Node × Node)) (s : Supply) : Nat → Option (Node × Supply)
  | 0 => none
  | fuel + 1 => do
    let (t, s) ← s.peek
    match t with
    | .key =>
      let (k, s) ← blockPart s.drop fuel
      let (v, s) ← blockValue s fuel
      blockEntries ((k, v) :: done) s fuel
    | .value =>
      let (v, s) ← blockValue s fuel
      blockEntries ((empty, v) :: done) s fuel
    | .blockEnd => return (.mapping done.reverse, s.drop)
    | _ => none

def blockValue (s : Supply) : Nat → Option (Node × Supply)
  | 0 => none
  | fuel + 1 => do
    let (t, s) ← s.peek
    if t = .value then blockPart s.drop fuel else return (empty, s)

def blockPart (s : Supply) : Nat → Option (Node × Supply)
  | 0 => none
  | fuel + 1 => do
    let (t, s) ← s.peek
    if t = .key ∨ t = .value ∨ t = .blockEnd then return (empty, s) else read true true s fuel

/-- The items in square brackets behind those of `done`, which are given latest first. An item with
a colon is a mapping of one entry. -/
def bracketedItems (first : Bool) (done : List Node) (s : Supply) : Nat → Option (Node × Supply)
  | 0 => none
  | fuel + 1 => do
    let (t, s) ← s.peek
    if t = .closeSquare then return (.sequence done.reverse, s.drop)
    else if !first && t != .comma then none
    else
      let (t, s) ← if first then pure (t, s) else s.drop.peek
      if t = .closeSquare then return (.sequence done.reverse, s.drop)
      else if t = .key then
        let (k, s) ← bracketedPart s.drop fuel
        let (v, s) ← bracketedValue s fuel
        bracketedItems false (.mapping [(k, v)] :: done) s fuel
      else
        let (item, s) ← read false false s fuel
        bracketedItems false (item :: done) s fuel

/-- The entries in curly brackets behind those of `done`, which are given latest first. -/
def bracketedEntries (first : Bool) (done : List (Node × Node)) (s : Supply) :
    Nat → Option (Node × Supply)
  | 0 => none
  | fuel + 1 => do
    let (t, s) ← s.peek
    if t = .closeCurly then return (.mapping done.reverse, s.drop)
    else if !first && t != .comma then none
    else
      let (t, s) ← if first then pure (t, s) else s.drop.peek
      if t = .closeCurly then return (.mapping done.reverse, s.drop)
      else if t = .key then
        let (k, s) ← bracketedPart s.drop fuel
        let (v, s) ← bracketedValue s fuel
        bracketedEntries false ((k, v) :: done) s fuel
      else if t = .value then
        let (v, s) ← bracketedValue s fuel
        bracketedEntries false ((empty, v) :: done) s fuel
      else
        let (k, s) ← read false false s fuel
        bracketedEntries false ((k, empty) :: done) s fuel

def bracketedValue (s : Supply) : Nat → Option (Node × Supply)
  | 0 => none
  | fuel + 1 => do
    let (t, s) ← s.peek
    if t = .value then bracketedPart s.drop fuel else return (empty, s)

def bracketedPart (s : Supply) : Nat → Option (Node × Supply)
  | 0 => none
  | fuel + 1 => do
    let (t, s) ← s.peek
    if t = .value ∨ t = .comma ∨ t = .closeSquare ∨ t = .closeCurly then return (empty, s)
    else read false false s fuel

end

def skipDirectives (found : Bool) (s : Supply) : Nat → Option (Bool × Supply)
  | 0 => none
  | fuel + 1 => do
    let (t, s) ← s.peek
    if t = .directive then skipDirectives true s.drop fuel else return (found, s)

/-- Whether no document follows. A line of dots may end the one before. -/
def isLast (s : Supply) : Bool :=
  match s.peek with
  | some (.endOfInput, _) => true
  | some (.documentEnd, s) => s.drop.peek.any (·.1 == .endOfInput)
  | _ => false

def ofText (text : List Char) : Option (Option Node) := do
  let fuel := 16 * text.length + 16
  let (directed, s) ← skipDirectives false (.start text) fuel
  let (t, s) ← s.peek
  if t = .documentStart then
    let (t, s) ← s.drop.peek
    let (node, s) ←
      if t = .directive ∨ t = .documentStart ∨ t = .documentEnd ∨ t = .endOfInput then
        pure (empty, s)
      else read true false s fuel
    if isLast s then return some node else none
  else if directed then none
  else if t = .endOfInput then return none
  else
    let (node, s) ← read true false s fuel
    if isLast s then return some node else none

end Node

end TextTemplate.Yaml
