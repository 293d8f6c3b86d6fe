import Lexing.Text.Wire
import Lexing.Token.Basic

/-!
# Tokens as wire documents

The document of a token leaves out what can be told from the rest: the literal if it equals the
value, the name of a position without one, and the list of diagnostics if there are none. Causes of
diagnostics are not part of a document.
-/

namespace Lexing

/-- The document of a position. -/
def Position.wire (p : Position) : Wire :=
  .record ((p.name.map fun name => ("name", Wire.text name)).toList ++
    [("line", .number p.line.toNat), ("column", .number p.column.toNat)])

/-- The document of a diagnostic. -/
def Diagnostic.wire (d : Diagnostic) : Wire :=
  .record [("position", d.position.wire), ("message", .text d.message)]

namespace Token

/-- The document of a token. -/
def wire (t : Token) : Wire :=
  .record (
    [("value", .text t.value)] ++
    (if t.literal = t.value then [] else [("literal", .text t.literal)]) ++
    [("type", .text t.kind), ("position", t.position.wire)] ++
    (if t.diagnostics.isEmpty then []
      else [("diagnostics", .list (t.diagnostics.map Diagnostic.wire))]))

/-- The document of a list of tokens. -/
def wireAll (tokens : List Token) : Wire :=
  .list (tokens.map wire)

end Token

end Lexing
