import TextTemplate.Node
import TextTemplate.Token.Stream

/-! The inside of a directive, from behind its opener to its closer. A directive is a node of its
own or the head of a block; the words that continue or end a block are read with the block. Paths
are `@` or an identifier, then fields and indexes with a dot before each. -/

namespace TextTemplate

inductive Directive where
  | comment (text : String)
  | value (path : Path) (formatter : Option FormatterCall)
  | call (template : String) (root : Option Path) (arguments : List (String × Path))
  | ifHead (condition : Path)
  | forHead (item : String) (index : Option String) (source : Path)
  | withHead (source : Path) (name : String)
  deriving DecidableEq

namespace TokenStream

def readSegments : TokenStream → Attempt (List String × TokenStream)
  | next dot (next t rest) =>
    if dot.kind = .dot then
      if t.kind = .identifier ∨ t.kind = .integer then do
        let (segments, rest) ← rest.readSegments
        return (t.value :: segments, rest)
      else .error (unexpected .segment t)
    else .ok ([], next dot (next t rest))
  | next dot s => if dot.kind = .dot then s.refuse .segment else .ok ([], next dot s)
  | ended position => .ok ([], ended position)
  | broken e => .error (.lex e)

def readPath : TokenStream → Attempt (Path × TokenStream)
  | next t rest =>
    match t.kind with
    | .atSign => do
      let (segments, rest) ← rest.readSegments
      return (⟨segments, true⟩, rest)
    | .identifier => do
      let (segments, rest) ← rest.readSegments
      return (⟨t.value :: segments, false⟩, rest)
    | .keyword _ => .error (.parse ⟨.reservedWord t.value, t.position⟩)
    | _ => .error (unexpected .path t)
  | s => s.refuse .path

theorem size_le_of_readSegments {s r : TokenStream} {segments : List String}
    (h : s.readSegments = .ok (segments, r)) : r.size ≤ s.size := by
  fun_induction readSegments s generalizing segments r with
  | case1 dot t rest hdot ht ih =>
    obtain ⟨⟨more, s'⟩, hs, hr⟩ := Attempt.bind_eq_ok.1 h
    obtain ⟨-, rfl⟩ := Prod.mk.inj (Attempt.pure_eq_ok.1 hr)
    have := ih hs
    simp only [size]
    omega
  | case2 => simp at h
  | case3 => simp at h; simp [← h.2]
  | case4 => exact absurd h refuse_ne_ok
  | case5 => simp at h; simp [← h.2]
  | case6 => simp at h; simp [← h.2]
  | case7 => simp at h

theorem size_lt_of_readPath {s r : TokenStream} {path : Path} (h : s.readPath = .ok (path, r)) :
    r.size < s.size := by
  unfold readPath at h
  split at h
  · split at h
    · obtain ⟨⟨more, s'⟩, hs, hr⟩ := Attempt.bind_eq_ok.1 h
      obtain ⟨-, rfl⟩ := Prod.mk.inj (Attempt.pure_eq_ok.1 hr)
      exact Nat.lt_succ_of_le (size_le_of_readSegments hs)
    · obtain ⟨⟨more, s'⟩, hs, hr⟩ := Attempt.bind_eq_ok.1 h
      obtain ⟨-, rfl⟩ := Prod.mk.inj (Attempt.pure_eq_ok.1 hr)
      exact Nat.lt_succ_of_le (size_le_of_readSegments hs)
    · cases h
    · cases h
  · exact absurd h refuse_ne_ok

def readLiterals : TokenStream → Attempt (List Literal × TokenStream)
  | next t rest =>
    match t.kind with
    | .string => do
      let (literals, rest) ← rest.readLiterals
      return (.text t.value :: literals, rest)
    | .integer => do
      let n ← Except.mapError .integer (readInteger t.value)
      let (literals, rest) ← rest.readLiterals
      return (.integer n :: literals, rest)
    | _ => .ok ([], next t rest)
  | ended position => .ok ([], ended position)
  | broken e => .error (.lex e)

def readFormatter (s : TokenStream) : Attempt (Option FormatterCall × TokenStream) := do
  let (given, s) ← s.accept .pipe
  if given then
    let (name, s) ← s.expect .identifier .formatterName
    let (arguments, s) ← s.readLiterals
    return (some ⟨name.value, arguments⟩, s)
  else return (none, s)

def readValue (s : TokenStream) : Attempt (Directive × TokenStream) := do
  let (path, s) ← s.readPath
  let (formatter, s) ← s.readFormatter
  return (.value path formatter, s)

def readNames : TokenStream → Attempt (List String × TokenStream)
  | next dot (next t rest) =>
    if dot.kind = .dot then
      if t.kind = .identifier then do
        let (names, rest) ← rest.readNames
        return (t.value :: names, rest)
      else .error (unexpected .templateName t)
    else .ok ([], next dot (next t rest))
  | next dot s => if dot.kind = .dot then s.refuse .templateName else .ok ([], next dot s)
  | ended position => .ok ([], ended position)
  | broken e => .error (.lex e)

def readTemplateName : TokenStream → Attempt (String × TokenStream)
  | next t rest =>
    match t.kind with
    | .string => .ok (t.value, rest)
    | .identifier => do
      let (names, rest) ← rest.readNames
      return (String.intercalate "." (t.value :: names), rest)
    | _ => .error (unexpected .templateName t)
  | s => s.refuse .templateName

def readRoot (s : TokenStream) : Attempt (Option Path × TokenStream) := do
  let (given, s) ← s.accept (.keyword .withWord)
  if given then
    let (path, s) ← s.readPath
    return (some path, s)
  else return (none, s)

/-- An argument behind its comma. The names in `taken` are used up. -/
def readArgument (taken : List String) (s : TokenStream) :
    Attempt ((String × Path) × TokenStream) := do
  let (key, s) ← s.expect .identifier .argumentName
  if key.value ∈ taken then throw (.parse ⟨.duplicateArgument key.value, key.position⟩)
  let (_, s) ← s.expect .equals .equalsSign
  let (path, s) ← s.readPath
  return ((key.value, path), s)

theorem size_lt_of_readArgument {taken : List String} {s r : TokenStream}
    {argument : String × Path} (h : s.readArgument taken = .ok (argument, r)) :
    r.size < s.size := by
  obtain ⟨⟨key, s1⟩, h1, h⟩ := Attempt.bind_eq_ok.1 h
  dsimp only at h
  split at h
  · simp [throw, throwThe, MonadExceptOf.throw, bind, Except.bind] at h
  · obtain ⟨⟨eq, s2⟩, h2, h⟩ := Attempt.bind_eq_ok.1 h
    obtain ⟨⟨path, s3⟩, h3, h⟩ := Attempt.bind_eq_ok.1 h
    obtain ⟨-, rfl⟩ := Prod.mk.inj (Attempt.pure_eq_ok.1 h)
    exact Nat.lt_trans (size_lt_of_readPath h3)
      (Nat.lt_trans (size_lt_of_expect h2) (size_lt_of_expect h1))

def readArguments (taken : List String) (s : TokenStream) :
    Attempt (List (String × Path) × TokenStream) :=
  match _hc : s.accept .comma with
  | .error e => .error e
  | .ok (false, s) => .ok ([], s)
  | .ok (true, s') =>
    match _ha : s'.readArgument taken with
    | .error e => .error e
    | .ok (argument, s'') => do
      let (arguments, rest) ← s''.readArguments (argument.1 :: taken)
      return (argument :: arguments, rest)
termination_by s.size
decreasing_by exact Nat.lt_of_lt_of_le (size_lt_of_readArgument _ha) (size_le_of_accept _hc)

def readCall (s : TokenStream) : Attempt (Directive × TokenStream) := do
  let (template, s) ← s.readTemplateName
  let (root, s) ← s.readRoot
  let (arguments, s) ← s.readArguments []
  return (.call template root arguments, s)

def readIndex (s : TokenStream) : Attempt (Option String × TokenStream) := do
  let (given, s) ← s.accept .comma
  if given then
    let (index, s) ← s.expect .identifier .indexVariable
    return (some index.value, s)
  else return (none, s)

def readForHead (s : TokenStream) : Attempt (Directive × TokenStream) := do
  let (item, s) ← s.expect .identifier .loopVariable
  let (index, s) ← s.readIndex
  let (_, s) ← s.expect (.keyword .inWord) (.keyword .inWord)
  let (source, s) ← s.readPath
  return (.forHead item.value index source, s)

def readWithHead (s : TokenStream) : Attempt (Directive × TokenStream) := do
  let (source, s) ← s.readPath
  let (_, s) ← s.expect (.keyword .asWord) (.keyword .asWord)
  let (name, s) ← s.expect .identifier .bindingName
  return (.withHead source name.value, s)

def readIfHead (s : TokenStream) : Attempt (Directive × TokenStream) := do
  let (condition, s) ← s.readPath
  return (.ifHead condition, s)

def readDirective : TokenStream → Attempt (Directive × TokenStream)
  | next t rest =>
    match t.kind with
    | .comment => .ok (.comment t.value, rest)
    | .keyword .ifWord => rest.readIfHead
    | .keyword .forWord => rest.readForHead
    | .keyword .withWord => rest.readWithHead
    | .keyword .callWord => rest.readCall
    | .closer => .error (.parse ⟨.emptyDirective t.describe, t.position⟩)
    | _ => (next t rest).readValue
  | s => s.readValue

theorem size_le_of_readLiterals {s r : TokenStream} {literals : List Literal}
    (h : s.readLiterals = .ok (literals, r)) : r.size ≤ s.size := by
  fun_induction readLiterals s generalizing literals r with
  | case1 t rest _ ih =>
    obtain ⟨⟨more, s'⟩, hs, h⟩ := Attempt.bind_eq_ok.1 h
    obtain ⟨-, rfl⟩ := Prod.mk.inj (Attempt.pure_eq_ok.1 h)
    exact Nat.le_succ_of_le (ih hs)
  | case2 t rest _ ih =>
    obtain ⟨n, -, h⟩ := Attempt.bind_eq_ok.1 h
    obtain ⟨⟨more, s'⟩, hs, h⟩ := Attempt.bind_eq_ok.1 h
    obtain ⟨-, rfl⟩ := Prod.mk.inj (Attempt.pure_eq_ok.1 h)
    exact Nat.le_succ_of_le (ih hs)
  | case3 => simp at h; simp [← h.2]
  | case4 => simp at h; simp [← h.2]
  | case5 => simp at h

theorem size_le_of_readFormatter {s r : TokenStream} {formatter : Option FormatterCall}
    (h : s.readFormatter = .ok (formatter, r)) : r.size ≤ s.size := by
  obtain ⟨⟨given, s1⟩, h1, h⟩ := Attempt.bind_eq_ok.1 h
  have hs1 := size_le_of_accept h1
  dsimp only at h
  split at h
  · obtain ⟨⟨name, s2⟩, h2, h⟩ := Attempt.bind_eq_ok.1 h
    obtain ⟨⟨arguments, s3⟩, h3, h⟩ := Attempt.bind_eq_ok.1 h
    obtain ⟨-, rfl⟩ := Prod.mk.inj (Attempt.pure_eq_ok.1 h)
    exact Nat.le_trans (size_le_of_readLiterals h3)
      (Nat.le_trans (Nat.le_of_lt (size_lt_of_expect h2)) hs1)
  · obtain ⟨-, rfl⟩ := Prod.mk.inj (Attempt.pure_eq_ok.1 h)
    exact hs1

theorem size_lt_of_readValue {s r : TokenStream} {d : Directive}
    (h : s.readValue = .ok (d, r)) : r.size < s.size := by
  obtain ⟨⟨path, s1⟩, h1, h⟩ := Attempt.bind_eq_ok.1 h
  obtain ⟨⟨formatter, s2⟩, h2, h⟩ := Attempt.bind_eq_ok.1 h
  obtain ⟨-, rfl⟩ := Prod.mk.inj (Attempt.pure_eq_ok.1 h)
  exact Nat.lt_of_le_of_lt (size_le_of_readFormatter h2) (size_lt_of_readPath h1)

theorem size_le_of_readNames {s r : TokenStream} {names : List String}
    (h : s.readNames = .ok (names, r)) : r.size ≤ s.size := by
  fun_induction readNames s generalizing names r with
  | case1 dot t rest _ _ ih =>
    obtain ⟨⟨more, s'⟩, hs, h⟩ := Attempt.bind_eq_ok.1 h
    obtain ⟨-, rfl⟩ := Prod.mk.inj (Attempt.pure_eq_ok.1 h)
    have := ih hs
    simp only [size]
    omega
  | case2 => simp at h
  | case3 => simp at h; simp [← h.2]
  | case4 => exact absurd h refuse_ne_ok
  | case5 => simp at h; simp [← h.2]
  | case6 => simp at h; simp [← h.2]
  | case7 => simp at h

theorem size_lt_of_readTemplateName {s r : TokenStream} {name : String}
    (h : s.readTemplateName = .ok (name, r)) : r.size < s.size := by
  unfold readTemplateName at h
  split at h
  · split at h
    · simp at h; simp [← h.2, size]
    · obtain ⟨⟨names, s'⟩, hs, h⟩ := Attempt.bind_eq_ok.1 h
      obtain ⟨-, rfl⟩ := Prod.mk.inj (Attempt.pure_eq_ok.1 h)
      exact Nat.lt_succ_of_le (size_le_of_readNames hs)
    · cases h
  · exact absurd h refuse_ne_ok

theorem size_le_of_readRoot {s r : TokenStream} {root : Option Path}
    (h : s.readRoot = .ok (root, r)) : r.size ≤ s.size := by
  obtain ⟨⟨given, s1⟩, h1, h⟩ := Attempt.bind_eq_ok.1 h
  have hs1 := size_le_of_accept h1
  dsimp only at h
  split at h
  · obtain ⟨⟨path, s2⟩, h2, h⟩ := Attempt.bind_eq_ok.1 h
    obtain ⟨-, rfl⟩ := Prod.mk.inj (Attempt.pure_eq_ok.1 h)
    exact Nat.le_trans (Nat.le_of_lt (size_lt_of_readPath h2)) hs1
  · obtain ⟨-, rfl⟩ := Prod.mk.inj (Attempt.pure_eq_ok.1 h)
    exact hs1

theorem size_le_of_readArguments {taken : List String} {s r : TokenStream}
    {arguments : List (String × Path)} (h : s.readArguments taken = .ok (arguments, r)) :
    r.size ≤ s.size := by
  fun_induction readArguments taken s generalizing arguments r with
  | case1 => simp at h
  | case2 taken s s' hc => simp at h; exact h.2 ▸ size_le_of_accept hc
  | case3 => simp at h
  | case4 taken s s' hc argument s'' ha ih =>
    obtain ⟨⟨more, s3⟩, hs, h⟩ := Attempt.bind_eq_ok.1 h
    obtain ⟨-, rfl⟩ := Prod.mk.inj (Attempt.pure_eq_ok.1 h)
    exact Nat.le_trans (ih hs)
      (Nat.le_trans (Nat.le_of_lt (size_lt_of_readArgument ha)) (size_le_of_accept hc))

theorem size_lt_of_readCall {s r : TokenStream} {d : Directive}
    (h : s.readCall = .ok (d, r)) : r.size < s.size := by
  obtain ⟨⟨template, s1⟩, h1, h⟩ := Attempt.bind_eq_ok.1 h
  obtain ⟨⟨root, s2⟩, h2, h⟩ := Attempt.bind_eq_ok.1 h
  obtain ⟨⟨arguments, s3⟩, h3, h⟩ := Attempt.bind_eq_ok.1 h
  obtain ⟨-, rfl⟩ := Prod.mk.inj (Attempt.pure_eq_ok.1 h)
  exact Nat.lt_of_le_of_lt (Nat.le_trans (size_le_of_readArguments h3) (size_le_of_readRoot h2))
    (size_lt_of_readTemplateName h1)

theorem size_le_of_readIndex {s r : TokenStream} {index : Option String}
    (h : s.readIndex = .ok (index, r)) : r.size ≤ s.size := by
  obtain ⟨⟨given, s1⟩, h1, h⟩ := Attempt.bind_eq_ok.1 h
  have hs1 := size_le_of_accept h1
  dsimp only at h
  split at h
  · obtain ⟨⟨t, s2⟩, h2, h⟩ := Attempt.bind_eq_ok.1 h
    obtain ⟨-, rfl⟩ := Prod.mk.inj (Attempt.pure_eq_ok.1 h)
    exact Nat.le_trans (Nat.le_of_lt (size_lt_of_expect h2)) hs1
  · obtain ⟨-, rfl⟩ := Prod.mk.inj (Attempt.pure_eq_ok.1 h)
    exact hs1

theorem size_lt_of_readForHead {s r : TokenStream} {d : Directive}
    (h : s.readForHead = .ok (d, r)) : r.size < s.size := by
  obtain ⟨⟨item, s1⟩, h1, h⟩ := Attempt.bind_eq_ok.1 h
  obtain ⟨⟨index, s2⟩, h2, h⟩ := Attempt.bind_eq_ok.1 h
  obtain ⟨⟨word, s3⟩, h3, h⟩ := Attempt.bind_eq_ok.1 h
  obtain ⟨⟨source, s4⟩, h4, h⟩ := Attempt.bind_eq_ok.1 h
  obtain ⟨-, rfl⟩ := Prod.mk.inj (Attempt.pure_eq_ok.1 h)
  exact Nat.lt_trans (Nat.lt_trans (size_lt_of_readPath h4) (size_lt_of_expect h3))
    (Nat.lt_of_le_of_lt (size_le_of_readIndex h2) (size_lt_of_expect h1))

theorem size_lt_of_readWithHead {s r : TokenStream} {d : Directive}
    (h : s.readWithHead = .ok (d, r)) : r.size < s.size := by
  obtain ⟨⟨source, s1⟩, h1, h⟩ := Attempt.bind_eq_ok.1 h
  obtain ⟨⟨word, s2⟩, h2, h⟩ := Attempt.bind_eq_ok.1 h
  obtain ⟨⟨name, s3⟩, h3, h⟩ := Attempt.bind_eq_ok.1 h
  obtain ⟨-, rfl⟩ := Prod.mk.inj (Attempt.pure_eq_ok.1 h)
  exact Nat.lt_trans (Nat.lt_trans (size_lt_of_expect h3) (size_lt_of_expect h2))
    (size_lt_of_readPath h1)

theorem size_lt_of_readIfHead {s r : TokenStream} {d : Directive}
    (h : s.readIfHead = .ok (d, r)) : r.size < s.size := by
  obtain ⟨⟨condition, s1⟩, h1, h⟩ := Attempt.bind_eq_ok.1 h
  obtain ⟨-, rfl⟩ := Prod.mk.inj (Attempt.pure_eq_ok.1 h)
  exact size_lt_of_readPath h1

theorem size_lt_of_readDirective {s r : TokenStream} {d : Directive}
    (h : s.readDirective = .ok (d, r)) : r.size < s.size := by
  unfold readDirective at h
  split at h
  · split at h
    · simp at h; simp [← h.2, size]
    · exact Nat.lt_succ_of_lt (size_lt_of_readIfHead h)
    · exact Nat.lt_succ_of_lt (size_lt_of_readForHead h)
    · exact Nat.lt_succ_of_lt (size_lt_of_readWithHead h)
    · exact Nat.lt_succ_of_lt (size_lt_of_readCall h)
    · cases h
    · exact size_lt_of_readValue h
  · exact size_lt_of_readValue h

end TokenStream

end TextTemplate
