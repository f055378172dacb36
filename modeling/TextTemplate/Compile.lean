import TextTemplate.Log
import TextTemplate.NameMap
import TextTemplate.Node.Assembly

/-! Compiling: from a text or a list of tokens to a template, and to libraries of templates, which
other templates call by name. -/

namespace TextTemplate

def defaultTemplateName : String := "<string>"

def defaultMaxDepth : Int := 64

namespace Template

def ofTokens (tokens : List Token) (name : String) (limit : Int) : Attempt Template := do
  return ⟨name, ← Assembly.start.run limit (TokenStream.ofList tokens)⟩

def compile (source name : String) (limit : Int) : Attempt Template := do
  return ⟨name, ← Assembly.start.run limit (TokenStream.ofText source)⟩

def compiledEntry (t : Template) : LogEntry :=
  .debug s!"Compiled template '{t.name}' -> {t.nodes.length} nodes"

end Template

abbrev Library := NameMap Template

namespace Library

def register (l : Library) (name : String) (t : Template) : Library × Log :=
  (NameMap.put name t l,
    if NameMap.contains l name then [.debug s!"Template '{name}' replaces existing template"]
    else [])

def registerSource (l : Library) (name source : String) (limit : Int) :
    Attempt (Template × Library × Log) := do
  let t ← Template.compile source name limit
  let (l, log) := l.register name t
  return (t, l, t.compiledEntry :: log)

def ofSources (sources : List (String × String)) : Attempt Library :=
  sources.foldlM (fun l entry => do
    let (_, l, _) ← Library.registerSource l entry.1 entry.2 defaultMaxDepth
    return l) []

end Library

end TextTemplate
