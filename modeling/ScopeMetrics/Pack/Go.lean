import ScopeMetrics.Pack

/-! # The Go pack -/

namespace ScopeMetrics.Pack

def go : Pack where
  language := .go
  kinds :=
    [⟨{.function}, ["function_declaration", "method_declaration"]⟩,
      ⟨{.closure}, ["func_literal"]⟩,
      ⟨ifFlags, ["if_statement"]⟩,
      ⟨loopFlags, ["for_statement"]⟩,
      ⟨switchFlags,
        ["expression_switch_statement", "type_switch_statement", "select_statement"]⟩,
      ⟨{.decision}, ["expression_case", "type_case", "communication_case"]⟩,
      ⟨exitFlags, ["return_statement"]⟩,
      ⟨{.statement},
        ["expression_statement", "var_declaration", "const_declaration", "go_statement",
          "defer_statement", "break_statement", "continue_statement", "goto_statement",
          "send_statement", "import_declaration", "package_clause", "labeled_statement",
          "fallthrough_statement"]⟩,
      ⟨{.statement, .assignment},
        ["short_var_declaration", "assignment_statement", "inc_statement", "dec_statement"]⟩,
      ⟨{.assignment}, ["var_spec"]⟩,
      ⟨{.call}, ["call_expression"]⟩,
      ⟨{.comment}, ["comment"]⟩,
      ⟨{.parameter}, ["parameter_list"]⟩]
  tokens := curlyTokens
  composites := ["interpreted_string_literal", "raw_string_literal", "rune_literal"]
  nonParameters := ["comment"]
  multiNameParameters := ["parameter_declaration"]
  valuedAssignments := ["var_spec"]
  defaultParents := ["default_case"]
  visibility := { style := .capitalized }

end ScopeMetrics.Pack
