import TextTemplate.Proofs.Lookahead

/-! The readers of directives over a buffer of tokens, with loops where the readers of streams
recurse. They do what those do, and every turn of a loop that asks for another one has consumed a
token. -/

namespace TextTemplate

namespace TokenStream

variable {α : Type}

/-- What a reader of lists answers when some items have been read before. -/
def extended (done : List α) (x : Attempt (List α × TokenStream)) :
    Attempt (List α × TokenStream) := do
  let (more, s) ← x
  return (done ++ more, s)

theorem extended_ok (done more : List α) (s : TokenStream) :
    extended done (.ok (more, s)) = .ok (done ++ more, s) := rfl

theorem extended_cons (done : List α) (a : α) (x : Attempt (List α × TokenStream)) :
    extended done (do let (more, s) ← x; return (a :: more, s)) = extended (done ++ [a]) x := by
  cases x with
  | error e => rfl
  | ok result =>
    obtain ⟨more, s⟩ := result
    simp [extended]

def readSegment : TokenStream → Attempt (Token × TokenStream)
  | next t rest =>
    if t.kind = .identifier ∨ t.kind = .integer then .ok (t, rest)
    else .error (unexpected .segment t)
  | s => s.refuse .segment

theorem readSegments_eq (s : TokenStream) : s.readSegments = (do
    let (given, s) ← s.accept .dot
    if given then
      let (t, s) ← s.readSegment
      let (more, s) ← s.readSegments
      return (t.value :: more, s)
    else return ([], s)) := by
  cases s with
  | next dot s =>
    by_cases hdot : dot.kind = .dot
    · cases s with
      | next t rest => by_cases ht : t.kind = .identifier ∨ t.kind = .integer <;>
          simp [readSegments, accept, hdot, readSegment, ht]
      | ended | broken => simp [readSegments, accept, hdot, readSegment, refuse, peek]
    · cases s <;> simp [readSegments, accept, hdot]
  | ended | broken => rfl

theorem readNames_eq (s : TokenStream) : s.readNames = (do
    let (given, s) ← s.accept .dot
    if given then
      let (t, s) ← s.expect .identifier .templateName
      let (more, s) ← s.readNames
      return (t.value :: more, s)
    else return ([], s)) := by
  cases s with
  | next dot s =>
    by_cases hdot : dot.kind = .dot
    · cases s with
      | next t rest => by_cases ht : t.kind = .identifier <;>
          simp [readNames, accept, hdot, expect, ht]
      | ended | broken => simp [readNames, accept, hdot, expect, refuse, peek]
    · cases s <;> simp [readNames, accept, hdot]
  | ended | broken => rfl

/-- Reading a name that is no literal. -/
theorem readTemplateName_eq {s : TokenStream} {t : Token} (h : s.Shows t) (ht : t.kind ≠ .string) :
    s.readTemplateName = (do
      let (first, s) ← s.expect .identifier .templateName
      let (names, s) ← s.readNames
      return (String.intercalate "." (first.value :: names), s)) := by
  obtain ⟨⟨rest, rfl⟩, -⟩ | ⟨rfl, -⟩ := h
  · by_cases hname : t.kind = .identifier
    · simp [readTemplateName, hname, expect]
    · simp only [readTemplateName, expect, if_neg hname]
      rfl
  · simp [readTemplateName, expect, refuse, peek]

end TokenStream

namespace Parser

open TokenStream (next ended extended)

theorem ends_of_extended {α β : Type} {p : Parser (List α)} {l : Lookahead} {done : List α}
    {x : Attempt (List α × TokenStream)} (h : Ends p l (Agrees (extended done x)))
    (make : List α → β) : Ends (do return make (← p)) l
      (Agrees (do let (more, s) ← x; return (make (done ++ more), s))) := by
  refine h.bind_read (fun all l' _ hall => ?_) fun e l' herror => ?_
  · cases x with
    | error e => cases hall
    | ok result =>
      obtain ⟨more, s⟩ := result
      obtain ⟨rfl, rfl⟩ := Prod.mk.inj (Except.ok.inj hall)
      exact ends_return rfl
  · cases x with
    | error e =>
      obtain rfl := Except.error.inj herror
      rfl
    | ok result => cases herror

section Dotted

/-- One more part behind a dot, if there is a dot. -/
def dottedTurn (readPart : Parser Token) (parts : List String) :
    Parser (Turn (List String) (List String)) := do
  if ← accept .dot then
    let t ← readPart
    return .again (parts ++ [t.value])
  else return .finished parts

variable {readPart : Parser Token} {partOf : TokenStream → Attempt (Token × TokenStream)}
  {partsOf : TokenStream → Attempt (List String × TokenStream)}

theorem turns_dottedTurn (hpart : Reads readPart partOf)
    (hparts : ∀ s, partsOf s = do
      let (given, s) ← s.accept .dot
      if given then
        let (t, s) ← partOf s
        let (more, s) ← partsOf s
        return (t.value :: more, s)
      else return ([], s)) (parts : List String) (l : Lookahead) :
    Ends (dottedTurn readPart parts) l
      (Turns (fun parts s => extended parts (partsOf s)) parts l) := by
  refine ends_accept (by decide) (fun l' hconsumes haccept => ?_) fun l' _ haccept => ?_
  · refine (hpart l').bind_read (fun t l'' hfollows hread => ?_) fun e l'' hread => ?_
    · refine ends_pure (turns_again (hconsumes.follows hfollows) ?_)
      simp only [hparts l.stream, haccept, Attempt.ok_bind, if_true, hread]
      exact TokenStream.extended_cons parts t.value _
    · refine turns_error ?_
      simp only [hparts l.stream, haccept, Attempt.ok_bind, if_true, hread]
      rfl
  · refine ends_pure (turns_finished ?_)
    rw [hparts, haccept]
    simp [extended]

theorem reads_dotted (hpart : Reads readPart partOf)
    (hparts : ∀ s, partsOf s = do
      let (given, s) ← s.accept .dot
      if given then
        let (t, s) ← partOf s
        let (more, s) ← partsOf s
        return (t.value :: more, s)
      else return ([], s)) (parts : List String) :
    Reads (Loop.run ⟨dottedTurn readPart⟩ parts) fun s => extended parts (partsOf s) :=
  reads_run (turns_dottedTurn hpart hparts) parts

end Dotted

def readSegment : Parser Token := do
  let t ← peek 0
  if t.kind = .identifier ∨ t.kind = .integer then advance else refuse .segment t

theorem reads_readSegment : Reads readSegment TokenStream.readSegment := by
  intro l
  refine ends_peek fun t l' _ hs hshows => ?_
  obtain ⟨⟨rest, hnext⟩, hend⟩ | ⟨hended, hend⟩ := hshows
  · rw [hnext]
    simp only [TokenStream.readSegment]
    split
    · exact ends_advance_return (hs.trans hnext)
    · exact ends_throw rfl
  · rw [hended]
    simp only [TokenStream.readSegment, hend, reduceCtorEq, or_self, if_false]
    exact ends_refuse (.inr ⟨rfl, hend⟩) l'

def readPath : Parser Path := do
  let t ← peek 0
  match t.kind with
  | .atSign =>
    let _ ← advance
    let segments ← Loop.run ⟨dottedTurn readSegment⟩ []
    return ⟨segments, true⟩
  | .identifier =>
    let _ ← advance
    let segments ← Loop.run ⟨dottedTurn readSegment⟩ [t.value]
    return ⟨segments, false⟩
  | .keyword _ => throw (.parse ⟨.reservedWord t.value, t.position⟩)
  | _ => refuse .path t

theorem reads_segments (segments : List String) :
    Reads (Loop.run ⟨dottedTurn readSegment⟩ segments) fun s => extended segments s.readSegments :=
  reads_dotted reads_readSegment TokenStream.readSegments_eq segments

theorem reads_readPath : Reads readPath TokenStream.readPath := by
  intro l
  refine ends_peek fun t l' _ hs hshows => ?_
  obtain ⟨kind, value, position⟩ := t
  obtain ⟨⟨rest, hnext⟩, hend⟩ | ⟨hended, rfl⟩ := hshows
  · rw [hnext]
    rw [hnext] at hs
    cases kind with
    | atSign =>
      refine ends_advance hs fun l'' _ hrest => hrest ▸ ?_
      exact ends_of_extended (reads_segments [] l'') fun segments => (⟨segments, true⟩ : Path)
    | identifier =>
      refine ends_advance hs fun l'' _ hrest => hrest ▸ ?_
      exact ends_of_extended (reads_segments [value] l'') fun segments => (⟨segments, false⟩ : Path)
    | keyword => exact ends_throw rfl
    | endOfInput => exact absurd rfl hend
    | text | opener | closer | comment | integer | string | dot | pipe | comma | equals =>
      exact ends_throw rfl
  · rw [hended]
    exact ends_refuse (.inr ⟨rfl, rfl⟩) l'

/-- One more argument of a formatter, if a literal is in front. -/
def literalTurn (literals : List Literal) : Parser (Turn (List Literal) (List Literal)) := do
  let t ← peek 0
  match t.kind with
  | .string =>
    let _ ← advance
    return .again (literals ++ [.text t.value])
  | .integer =>
    let _ ← advance
    match readInteger t.value with
    | .ok n => return .again (literals ++ [.integer n])
    | .error fault => throw (.integer fault)
  | _ => return .finished literals

theorem turns_literalTurn (literals : List Literal) (l : Lookahead) : Ends (literalTurn literals) l
    (Turns (fun literals s => extended literals s.readLiterals) literals l) := by
  refine ends_peek fun t l' hfollows hs hshows => ?_
  obtain ⟨kind, value, position⟩ := t
  obtain ⟨⟨rest, hnext⟩, hend⟩ | ⟨hended, rfl⟩ := hshows
  · cases kind with
    | string =>
      refine ends_advance (hs.trans hnext) fun l'' hconsumes hrest => ends_pure ?_
      refine turns_again (.of_follows hfollows hconsumes) ?_
      rw [hnext, hrest]
      exact TokenStream.extended_cons literals (.text value) _
    | integer =>
      refine ends_advance (hs.trans hnext) fun l'' hconsumes hrest => ?_
      cases hvalue : readInteger value with
      | ok n =>
        refine ends_pure (turns_again (.of_follows hfollows hconsumes) ?_)
        simp only [hnext, hrest, hvalue, TokenStream.readLiterals]
        exact TokenStream.extended_cons literals (.integer n) _
      | error fault =>
        refine ends_throw (turns_error ?_)
        simp only [hnext, hvalue, TokenStream.readLiterals]
        rfl
    | endOfInput => exact absurd rfl hend
    | text | opener | closer | comment | keyword | identifier | dot | pipe | comma | equals
    | atSign =>
      refine ends_pure (turns_finished ?_)
      simp only [hs, hnext, TokenStream.readLiterals, TokenStream.extended_ok, List.append_nil]
  · refine ends_pure (turns_finished ?_)
    simp only [hs, hended, TokenStream.readLiterals, TokenStream.extended_ok, List.append_nil]

theorem reads_literals (literals : List Literal) :
    Reads (Loop.run ⟨literalTurn⟩ literals) fun s => extended literals s.readLiterals :=
  reads_run (f := fun literals s => extended literals s.readLiterals) turns_literalTurn literals

def readFormatter : Parser (Option FormatterCall) := do
  if ← accept .pipe then
    let name ← expect .identifier .formatterName
    return some ⟨name.value, ← Loop.run ⟨literalTurn⟩ []⟩
  else return none

theorem reads_readFormatter : Reads readFormatter TokenStream.readFormatter := by
  refine (reads_accept (by decide)).bind fun given => ?_
  cases given with
  | false => exact fun l => ends_return rfl
  | true =>
    refine (reads_expect (by decide)).bind fun name l => ?_
    exact ends_of_extended (reads_literals [] l) fun arguments =>
      some (FormatterCall.mk name.value arguments)

def readValue : Parser Directive := do
  let path ← readPath
  let formatter ← readFormatter
  return .value path formatter

theorem reads_readValue : Reads readValue TokenStream.readValue := by
  refine reads_readPath.bind fun path => ?_
  refine reads_readFormatter.bind fun formatter l => ?_
  exact ends_return rfl

def readTemplateName : Parser String := do
  let t ← peek 0
  if t.kind = .string then
    let t ← advance
    return t.value
  else
    let first ← expect .identifier .templateName
    let names ← Loop.run ⟨dottedTurn (expect .identifier .templateName)⟩ [first.value]
    return String.intercalate "." names

theorem reads_names (names : List String) :
    Reads (Loop.run ⟨dottedTurn (expect .identifier .templateName)⟩ names) fun s =>
      extended names s.readNames :=
  reads_dotted (reads_expect (by decide)) TokenStream.readNames_eq names

theorem reads_readTemplateName : Reads readTemplateName TokenStream.readTemplateName := by
  intro l
  refine ends_peek fun t l' _ hs hshows => ?_
  by_cases hstring : t.kind = .string
  · rw [if_pos hstring]
    obtain ⟨⟨rest, hnext⟩, -⟩ | ⟨-, hend⟩ := hshows
    · refine ends_advance (hs.trans hnext) fun l'' _ hrest => ends_return ?_
      simp only [hnext, TokenStream.readTemplateName, hstring, hrest]
    · exact absurd (hstring.symm.trans hend) (by decide)
  · rw [if_neg hstring, TokenStream.readTemplateName_eq hshows hstring, ← hs]
    refine (reads_expect (by decide) l').andThen fun first l'' _ _ => ?_
    exact ends_of_extended (reads_names [first.value] l'') (String.intercalate ".")

def readRoot : Parser (Option Path) := do
  if ← accept (.keyword .withWord) then
    return some (← readPath)
  else return none

theorem reads_readRoot : Reads readRoot TokenStream.readRoot := by
  refine (reads_accept (by decide)).bind fun given => ?_
  cases given with
  | false => exact fun l => ends_return rfl
  | true => exact reads_readPath.bind fun path l => ends_return rfl

def readArgument (taken : List String) : Parser (String × Path) := do
  let key ← expect .identifier .argumentName
  if key.value ∈ taken then throw (.parse ⟨.duplicateArgument key.value, key.position⟩)
  let _ ← expect .equals .equalsSign
  let path ← readPath
  return (key.value, path)

theorem reads_readArgument (taken : List String) :
    Reads (readArgument taken) (TokenStream.readArgument taken) := by
  refine (reads_expect (by decide)).bind fun key => ?_
  by_cases hmem : key.value ∈ taken
  · simp only [hmem, if_true]
    exact fun l => ⟨_, l, rfl, .refl l, rfl⟩
  · simp only [hmem, if_false]
    refine (reads_expect (by decide)).bind fun sign => ?_
    exact reads_readPath.bind fun path l => ends_return rfl

/-- One more argument of a call, if a comma is in front. The names that are used up are kept beside
the arguments. -/
def argumentTurn (state : List String × List (String × Path)) :
    Parser (Turn (List String × List (String × Path)) (List (String × Path))) := do
  if ← accept .comma then
    let argument ← readArgument state.1
    return .again (argument.1 :: state.1, state.2 ++ [argument])
  else return .finished state.2

theorem turns_argumentTurn (state : List String × List (String × Path)) (l : Lookahead) :
    Ends (argumentTurn state) l
      (Turns (fun state s => extended state.2 (s.readArguments state.1)) state l) := by
  refine ends_accept (by decide) (fun l' hconsumes haccept => ?_) fun l' _ haccept => ?_
  · refine (reads_readArgument state.1 l').bind_read (fun argument l'' hfollows hread => ?_)
      fun e l'' hread => ?_
    · refine ends_pure (turns_again (hconsumes.follows hfollows) ?_)
      simp only [TokenStream.readArguments_eq _ l.stream, haccept, Attempt.ok_bind, if_true, hread]
      exact TokenStream.extended_cons state.2 argument _
    · refine turns_error ?_
      simp only [TokenStream.readArguments_eq _ l.stream, haccept, Attempt.ok_bind, if_true, hread]
      rfl
  · refine ends_pure (turns_finished ?_)
    simp only [TokenStream.readArguments_eq _ l.stream, haccept]
    simp [extended]

theorem reads_arguments (taken : List String) (arguments : List (String × Path)) :
    Reads (Loop.run ⟨argumentTurn⟩ (taken, arguments)) fun s =>
      extended arguments (s.readArguments taken) :=
  reads_run (f := fun state s => extended state.2 (s.readArguments state.1)) turns_argumentTurn
    (taken, arguments)

def readCall : Parser Directive := do
  let template ← readTemplateName
  let root ← readRoot
  return .call template root (← Loop.run ⟨argumentTurn⟩ ([], []))

theorem reads_readCall : Reads readCall TokenStream.readCall := by
  refine reads_readTemplateName.bind fun template => ?_
  refine reads_readRoot.bind fun root l => ?_
  exact ends_of_extended (reads_arguments [] [] l) (Directive.call template root)

def readIndex : Parser (Option String) := do
  if ← accept .comma then
    let index ← expect .identifier .indexVariable
    return some index.value
  else return none

theorem reads_readIndex : Reads readIndex TokenStream.readIndex := by
  refine (reads_accept (by decide)).bind fun given => ?_
  cases given with
  | false => exact fun l => ends_return rfl
  | true => exact (reads_expect (by decide)).bind fun index l => ends_return rfl

def readForHead : Parser Directive := do
  let item ← expect .identifier .loopVariable
  let index ← readIndex
  let _ ← expect (.keyword .inWord) (.keyword .inWord)
  let source ← readPath
  return .forHead item.value index source

theorem reads_readForHead : Reads readForHead TokenStream.readForHead := by
  refine (reads_expect (by decide)).bind fun item => ?_
  refine reads_readIndex.bind fun index => ?_
  refine (reads_expect (by decide)).bind fun word => ?_
  exact reads_readPath.bind fun source l => ends_return rfl

def readWithHead : Parser Directive := do
  let source ← readPath
  let _ ← expect (.keyword .asWord) (.keyword .asWord)
  let name ← expect .identifier .bindingName
  return .withHead source name.value

theorem reads_readWithHead : Reads readWithHead TokenStream.readWithHead := by
  refine reads_readPath.bind fun source => ?_
  refine (reads_expect (by decide)).bind fun word => ?_
  exact (reads_expect (by decide)).bind fun name l => ends_return rfl

def readIfHead : Parser Directive := do
  let condition ← readPath
  return .ifHead condition

theorem reads_readIfHead : Reads readIfHead TokenStream.readIfHead :=
  reads_readPath.bind fun _ _ => ends_return rfl

def readDirective : Parser Directive := do
  let t ← peek 0
  match t.kind with
  | .comment =>
    let _ ← advance
    return .comment t.value
  | .keyword .ifWord =>
    let _ ← advance
    readIfHead
  | .keyword .forWord =>
    let _ ← advance
    readForHead
  | .keyword .withWord =>
    let _ ← advance
    readWithHead
  | .keyword .callWord =>
    let _ ← advance
    readCall
  | .closer => throw (.parse ⟨.emptyDirective t.describe, t.position⟩)
  | _ => readValue

theorem reads_readDirective : Reads readDirective TokenStream.readDirective := by
  intro l
  refine ends_peek fun t l' _ hs hshows => ?_
  obtain ⟨kind, value, position⟩ := t
  obtain ⟨⟨rest, hnext⟩, hend⟩ | ⟨hended, rfl⟩ := hshows
  · rw [hnext] at hs ⊢
    cases kind with
    | comment => exact ends_advance hs fun l'' _ hrest => ends_return (by rw [hrest]; rfl)
    | keyword word =>
      cases word with
      | ifWord => exact ends_advance hs fun l'' _ hrest => reads_readIfHead.ends hrest
      | forWord => exact ends_advance hs fun l'' _ hrest => reads_readForHead.ends hrest
      | withWord => exact ends_advance hs fun l'' _ hrest => reads_readWithHead.ends hrest
      | callWord => exact ends_advance hs fun l'' _ hrest => reads_readCall.ends hrest
      | elseWord | endifWord | inWord | endforWord | asWord | endwithWord =>
        exact reads_readValue.ends hs
    | closer => exact ends_throw rfl
    | endOfInput => exact absurd rfl hend
    | text | opener | identifier | integer | string | dot | pipe | comma | equals | atSign =>
      exact reads_readValue.ends hs
  · rw [hended] at hs ⊢
    exact reads_readValue.ends hs

end Parser

end TextTemplate
