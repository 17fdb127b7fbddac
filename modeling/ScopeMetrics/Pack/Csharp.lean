import ScopeMetrics.Pack

/-! # The C# pack -/

namespace ScopeMetrics.Pack

def csharp : Pack where
  language := .csharp
  kinds :=
    [⟨{.class_},
        ["class_declaration", "struct_declaration", "interface_declaration", "record_declaration",
          "record_struct_declaration"]⟩,
      ⟨{.module}, ["namespace_declaration", "file_scoped_namespace_declaration"]⟩,
      ⟨{.function},
        ["method_declaration", "constructor_declaration", "destructor_declaration",
          "operator_declaration", "conversion_operator_declaration", "local_function_statement"]⟩,
      ⟨{.closure}, ["lambda_expression", "anonymous_method_expression"]⟩,
      ⟨ifFlags, ["if_statement"]⟩,
      ⟨loopFlags, ["for_statement", "foreach_statement", "while_statement", "do_statement"]⟩,
      ⟨switchFlags, ["switch_statement"]⟩,
      ⟨{.nesting}, ["switch_expression"]⟩,
      ⟨{.decision}, ["switch_section"]⟩,
      ⟨{.decision, .condition}, ["switch_expression_arm"]⟩,
      ⟨catchFlags, ["catch_clause"]⟩,
      ⟨ternaryFlags, ["conditional_expression"]⟩,
      ⟨exitFlags, ["return_statement", "throw_statement"]⟩,
      ⟨{.exit}, ["throw_expression"]⟩,
      ⟨{.statement},
        ["expression_statement", "local_declaration_statement", "break_statement",
          "continue_statement", "try_statement", "yield_statement", "using_statement",
          "lock_statement", "goto_statement", "using_directive"]⟩,
      ⟨{.statement, .attribute},
        ["field_declaration", "property_declaration", "event_field_declaration"]⟩,
      ⟨{.assignment},
        ["assignment_expression", "variable_declarator", "prefix_unary_expression",
          "postfix_unary_expression"]⟩,
      ⟨{.call}, ["invocation_expression", "object_creation_expression"]⟩,
      ⟨{.comment}, ["comment"]⟩,
      ⟨{.parameter}, ["parameter_list", "bracketed_parameter_list"]⟩]
  tokens := curlyTokens ++ [⟨logicalFlags, ["??"]⟩]
  composites :=
    ["string_literal", "verbatim_string_literal", "raw_string_literal",
      "interpolated_string_expression", "character_literal"]
  nonParameters := ["comment"]
  valuedAssignments := ["variable_declarator"]
  defaultLabels := ["switch_section"]
  wildcardArms := ["switch_expression_arm"]
  defaultParents := ["switch_section", "default_switch_label"]
  visibility :=
    { style := .modifiers
      modifierKinds := ["modifier"]
      defaultPublic := false
      publicContainers := ["interface_declaration"] }

end ScopeMetrics.Pack
