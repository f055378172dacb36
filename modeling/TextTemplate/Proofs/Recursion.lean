import Mathlib.Data.Set.Defs
import TextTemplate.Proofs.Moment

/-! Templates that call one another for ever. Their renderings end at the limit, and where nothing
stands before the calls but texts and comments, the texts show how far they got. -/

namespace TextTemplate

namespace Node

def isPlain : Node → Bool
  | .text .. | .comment .. => true
  | _ => false

def plainText : Node → String
  | .text _ said => said
  | _ => ""

end Node

namespace Template

end Template

namespace Setup

end Setup

namespace Meaning

end Meaning

open Meaning

section Plain

variable (setup : Setup) (limit : Int) (levels : Nat) (name : String) (ρ : Environment)

end Plain

namespace Template

end Template

end TextTemplate
