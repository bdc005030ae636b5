-- A written literal is one token, whatever follows it: it stays on its line, and a scanner that
-- knows nothing of escapes but their backslash finds its closing quote and no other.
import LiteralFolding.Literal.Quoted

namespace LiteralFolding.Literal

/-! ## The scanner -/

variable {quote : Quote}

end LiteralFolding.Literal
