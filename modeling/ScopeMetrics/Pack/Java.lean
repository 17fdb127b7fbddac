import ScopeMetrics.Pack

/-! # The Java pack -/

namespace ScopeMetrics.Pack

def java : Pack where
  language := .java
  kinds :=
    [⟨{.class_},
        ["class_declaration", "interface_declaration", "enum_declaration", "record_declaration",
          "annotation_type_declaration"]⟩,
      ⟨{.function},
        ["method_declaration", "constructor_declaration", "compact_constructor_declaration"]⟩,
      ⟨{.closure}, ["lambda_expression"]⟩,
      ⟨ifFlags, ["if_statement"]⟩,
      ⟨loopFlags, ["for_statement", "enhanced_for_statement", "while_statement", "do_statement"]⟩,
      ⟨switchFlags, ["switch_expression", "switch_statement"]⟩,
      ⟨{.decision}, ["switch_label"]⟩,
      ⟨catchFlags, ["catch_clause"]⟩,
      ⟨ternaryFlags, ["ternary_expression"]⟩,
      ⟨exitFlags, ["return_statement", "throw_statement"]⟩,
      ⟨{.statement},
        ["local_variable_declaration", "expression_statement", "break_statement",
          "continue_statement", "try_statement", "try_with_resources_statement", "yield_statement",
          "assert_statement", "synchronized_statement", "labeled_statement", "import_declaration",
          "package_declaration"]⟩,
      ⟨{.statement, .attribute}, ["field_declaration", "constant_declaration"]⟩,
      ⟨{.assignment}, ["assignment_expression", "update_expression", "variable_declarator"]⟩,
      ⟨{.call}, ["method_invocation", "object_creation_expression"]⟩,
      ⟨{.comment}, ["line_comment", "block_comment", "comment"]⟩,
      ⟨{.parameter}, ["formal_parameters", "inferred_parameters"]⟩]
  tokens := curlyTokens
  composites := ["string_literal", "character_literal", "text_block"]
  nonParameters := ["line_comment", "block_comment"]
  valuedAssignments := ["variable_declarator"]
  defaultLabels := ["switch_label"]
  defaultParents := ["switch_label"]
  visibility :=
    { style := .modifiers
      modifierKinds := ["modifiers"]
      defaultPublic := false
      publicContainers := ["interface_declaration", "annotation_type_declaration"] }

end ScopeMetrics.Pack
