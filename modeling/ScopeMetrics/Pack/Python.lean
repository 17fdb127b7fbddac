import ScopeMetrics.Pack

/-! # The Python pack -/

namespace ScopeMetrics.Pack

def python : Pack where
  language := .python
  kinds :=
    [⟨{.function}, ["function_definition"]⟩,
      ⟨{.closure}, ["lambda"]⟩,
      ⟨{.class_}, ["class_definition"]⟩,
      ⟨ifFlags, ["if_statement"]⟩,
      ⟨{.branch, .decision, .else_}, ["elif_clause"]⟩,
      ⟨loopFlags, ["for_statement", "while_statement"]⟩,
      ⟨{.loop, .decision}, ["for_in_clause"]⟩,
      ⟨{.decision}, ["if_clause", "case_clause"]⟩,
      ⟨catchFlags, ["except_clause", "except_group_clause"]⟩,
      ⟨ternaryFlags, ["conditional_expression"]⟩,
      ⟨switchFlags, ["match_statement"]⟩,
      ⟨exitFlags, ["return_statement", "raise_statement"]⟩,
      ⟨{.statement},
        ["expression_statement", "pass_statement", "break_statement", "continue_statement",
          "assert_statement", "import_statement", "import_from_statement",
          "future_import_statement", "global_statement", "nonlocal_statement", "delete_statement",
          "print_statement", "exec_statement", "type_alias_statement", "try_statement",
          "with_statement"]⟩,
      ⟨{.assignment, .attribute}, ["assignment"]⟩,
      ⟨{.assignment}, ["augmented_assignment"]⟩,
      ⟨{.call}, ["call"]⟩,
      ⟨{.comment}, ["comment"]⟩,
      ⟨{.parameter}, ["parameters", "lambda_parameters"]⟩]
  tokens :=
    delimiters ++ comparisons ++
      [⟨{.delimiter}, [":"]⟩,
        ⟨logicalFlags, ["and", "or"]⟩,
        ⟨elseFlags, ["else"]⟩,
        ⟨{.condition}, ["case", "try", "except", "in", "is", "not in", "is not"]⟩]
  composites := ["string"]
  nonParameters := ["keyword_separator", "positional_separator", "comment"]
  comparisonParents := ["comparison_operator"]
  valuedAssignments := ["assignment"]
  wildcardArms := ["case_clause"]
  visibility := { style := .underscore }

end ScopeMetrics.Pack
