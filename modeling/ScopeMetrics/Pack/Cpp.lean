import ScopeMetrics.Pack

/-! # The C and C++ pack -/

namespace ScopeMetrics.Pack

def cpp : Pack where
  language := .cpp
  kinds :=
    [⟨{.function}, ["function_definition"]⟩,
      ⟨{.closure}, ["lambda_expression"]⟩,
      ⟨{.class_}, ["class_specifier", "struct_specifier", "union_specifier"]⟩,
      ⟨{.module}, ["namespace_definition"]⟩,
      ⟨ifFlags, ["if_statement"]⟩,
      ⟨loopFlags, ["for_statement", "for_range_loop", "while_statement", "do_statement"]⟩,
      ⟨switchFlags, ["switch_statement"]⟩,
      ⟨{.decision}, ["case_statement"]⟩,
      ⟨catchFlags, ["catch_clause"]⟩,
      ⟨ternaryFlags, ["conditional_expression"]⟩,
      ⟨exitFlags, ["return_statement", "throw_statement", "co_return_statement"]⟩,
      ⟨{.exit}, ["throw_expression"]⟩,
      ⟨{.statement},
        ["expression_statement", "declaration", "break_statement", "continue_statement",
          "goto_statement", "try_statement", "labeled_statement"]⟩,
      ⟨{.statement, .attribute}, ["field_declaration"]⟩,
      ⟨{.assignment}, ["assignment_expression", "update_expression", "init_declarator"]⟩,
      ⟨{.call}, ["call_expression", "new_expression"]⟩,
      ⟨{.comment}, ["comment"]⟩,
      ⟨{.parameter}, ["parameter_list"]⟩]
  tokens := curlyTokens ++ [⟨logicalFlags, ["and", "or"]⟩]
  composites := ["string_literal", "raw_string_literal", "char_literal", "concatenated_string"]
  nonParameters := ["comment"]
  requiresBody := ["class_specifier", "struct_specifier", "union_specifier"]
  defaultLabels := ["case_statement"]
  defaultParents := ["case_statement"]
  methodDeclarators := ["function_declarator"]
  visibility :=
    { style := .sections
      defaultPublic := false
      publicContainers := ["struct_specifier", "union_specifier"] }

end ScopeMetrics.Pack
