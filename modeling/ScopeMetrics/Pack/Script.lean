import ScopeMetrics.Pack

/-!
# The JavaScript and TypeScript packs

TypeScript and its dialect with markup have the kinds of JavaScript and some more; the three share
their tokens.
-/

namespace ScopeMetrics.Pack

def scriptKinds : List Group :=
  [⟨{.function},
      ["function_declaration", "generator_function_declaration", "method_definition"]⟩,
    ⟨{.closure}, ["function_expression", "function", "generator_function", "arrow_function"]⟩,
    ⟨{.class_}, ["class_declaration", "class"]⟩,
    ⟨ifFlags, ["if_statement"]⟩,
    ⟨loopFlags, ["for_statement", "for_in_statement", "while_statement", "do_statement"]⟩,
    ⟨switchFlags, ["switch_statement"]⟩,
    ⟨{.decision}, ["switch_case"]⟩,
    ⟨catchFlags, ["catch_clause"]⟩,
    ⟨ternaryFlags, ["ternary_expression"]⟩,
    ⟨exitFlags, ["return_statement", "throw_statement"]⟩,
    ⟨{.statement},
      ["expression_statement", "variable_declaration", "lexical_declaration", "break_statement",
        "continue_statement", "try_statement", "labeled_statement", "debugger_statement",
        "import_statement", "with_statement"]⟩,
    ⟨{.assignment},
      ["assignment_expression", "augmented_assignment_expression", "update_expression",
        "variable_declarator"]⟩,
    ⟨{.call}, ["call_expression", "new_expression"]⟩,
    ⟨{.attribute}, ["field_definition"]⟩,
    ⟨{.comment}, ["comment", "html_comment"]⟩,
    ⟨{.parameter}, ["formal_parameters"]⟩]

def scriptTokens : List Group :=
  curlyTokens ++ [⟨{.condition}, ["===", "!=="]⟩, ⟨logicalFlags, ["??"]⟩]

def typedScriptKinds : List Group :=
  scriptKinds ++
    [⟨{.class_}, ["abstract_class_declaration", "interface_declaration"]⟩,
      ⟨{.module}, ["internal_module", "module"]⟩,
      ⟨{.statement}, ["type_alias_declaration", "enum_declaration"]⟩,
      ⟨{.attribute}, ["public_field_definition", "property_signature"]⟩]

def typedScriptVisibility : Visibility where
  style := .modifiers
  modifierKinds := ["accessibility_modifier"]

def javascript : Pack where
  language := .javascript
  kinds := scriptKinds
  tokens := scriptTokens
  composites := ["string", "template_string", "regex"]
  nonParameters := ["comment"]
  valuedAssignments := ["variable_declarator"]
  defaultParents := ["switch_default"]
  visibility := { style := .hash }

def typescript : Pack where
  language := .typescript
  kinds := typedScriptKinds
  tokens := scriptTokens
  composites := ["string", "template_string", "regex"]
  nonParameters := ["comment"]
  valuedAssignments := ["variable_declarator"]
  defaultParents := ["switch_default"]
  visibility := typedScriptVisibility

def tsx : Pack where
  language := .tsx
  kinds := typedScriptKinds
  tokens := scriptTokens
  composites := ["string", "template_string", "regex"]
  nonParameters := ["comment"]
  valuedAssignments := ["variable_declarator"]
  defaultParents := ["switch_default"]
  visibility := typedScriptVisibility

end ScopeMetrics.Pack
