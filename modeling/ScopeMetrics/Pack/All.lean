import ScopeMetrics.Pack.Cpp
import ScopeMetrics.Pack.Csharp
import ScopeMetrics.Pack.Go
import ScopeMetrics.Pack.Java
import ScopeMetrics.Pack.Markup
import ScopeMetrics.Pack.Python
import ScopeMetrics.Pack.Rust
import ScopeMetrics.Pack.Script

/-! # The pack of each language -/

namespace ScopeMetrics

def Language.pack : Language → Pack
  | .cpp => .cpp
  | .csharp => .csharp
  | .css => .css
  | .go => .go
  | .html => .html
  | .java => .java
  | .javascript => .javascript
  | .python => .python
  | .rust => .rust
  | .typescript => .typescript
  | .tsx => .tsx

/-- Each language's pack is its own. -/
theorem Language.pack_language (l : Language) : l.pack.language = l := by
  cases l <;> rfl

end ScopeMetrics
