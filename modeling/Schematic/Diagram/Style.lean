import Schematic.Text.Fold
import Schematic.Text.Search

/-!
# Styles

The looks that a node can have, and the rules that choose one by a keyword in a name.

## Main definitions

- `Style`, `Style.name`, `Style.look` — the styles, their class names and their properties
- `Style.named?` — the style of a class name
- `classify?` — the style of the first rule with a keyword in a text
-/

namespace Schematic

/-- What a node stands for, as far as its look goes. -/
inductive Style where
  | webServer | database | cache | application | network | volume | workload | service | config
  | storage | ingress | compute | loadbalancer | security | datasource | inputVariable
  | childModule | parameter | dependency
deriving DecidableEq, Repr

namespace Style

/-- Every style. -/
def all : List Style :=
  [webServer, database, cache, application, network, volume, workload, service, config, storage,
    ingress, compute, loadbalancer, security, datasource, inputVariable, childModule, parameter,
    dependency]

/-- The class name of a style. -/
def name : Style → String
  | webServer => "webServer"
  | database => "database"
  | cache => "cache"
  | application => "application"
  | network => "network"
  | volume => "volume"
  | workload => "workload"
  | service => "service"
  | config => "config"
  | storage => "storage"
  | ingress => "ingress"
  | compute => "compute"
  | loadbalancer => "loadbalancer"
  | security => "security"
  | datasource => "datasource"
  | inputVariable => "variable"
  | childModule => "module"
  | parameter => "parameter"
  | dependency => "dependency"

/-- Fill and stroke of a style, and for a placeholder also dashes. -/
def paint : Style → String
  | webServer => "fill:#e1f5fe,stroke:#01579b"
  | database => "fill:#f3e5f5,stroke:#4a148c"
  | cache => "fill:#fff3e0,stroke:#e65100"
  | application => "fill:#e8f5e8,stroke:#2e7d32"
  | network => "fill:#e3f2fd,stroke:#1976d2"
  | volume => "fill:#f1f8e9,stroke:#33691e"
  | workload => "fill:#e3f2fd,stroke:#1976d2"
  | service => "fill:#f3e5f5,stroke:#7b1fa2"
  | config => "fill:#fff3e0,stroke:#f57c00"
  | storage => "fill:#fce4ec,stroke:#c2185b"
  | ingress => "fill:#e0f7fa,stroke:#006064"
  | compute => "fill:#fff3e0,stroke:#f57c00"
  | loadbalancer => "fill:#e8f5e8,stroke:#388e3c"
  | security => "fill:#ffebee,stroke:#c62828"
  | datasource => "fill:#f1f8e9,stroke:#689f38"
  | inputVariable => "fill:#fff8e1,stroke:#fbc02d"
  | childModule => "fill:#ede7f6,stroke:#4527a0"
  | parameter => "fill:#fff8e1,stroke:#fbc02d"
  | dependency => "fill:#eceff1,stroke:#455a64,stroke-dasharray:4"

/-- The properties of a style. -/
def look (style : Style) : String :=
  style.paint ++ ",stroke-width:2px,color:#000"

/-- The style of a class name. -/
def named? (className : String) : Option Style :=
  all.find? fun style => style.name == className

/-- Every style is found by its class name. -/
@[simp] theorem named?_name (style : Style) : named? style.name = some style := by
  cases style <;> decide

end Style

/-! ## Choosing a style -/

/-- Keywords and the style that they stand for, the most specific first. -/
abbrev StyleRules := List (List String × Style)

/-- The style of the first rule that has a keyword in the text, in any case. -/
def classify? (rules : StyleRules) (text : String) : Option Style :=
  let folded := Text.fold text.toList
  (rules.find? fun rule => rule.1.any fun keyword => Text.occursIn keyword.toList folded).map
    Prod.snd

end Schematic
