import ScopeMetrics.Pack

/-! # The Rust pack -/

namespace ScopeMetrics.Pack

def rust : Pack where
  language := .rust
  kinds :=
    [⟨{.function}, ["function_item"]⟩,
      ⟨{.closure}, ["closure_expression"]⟩,
      ⟨{.class_}, ["impl_item", "trait_item"]⟩,
      ⟨{.module}, ["mod_item"]⟩,
      ⟨{.branch, .decision, .nesting}, ["if_expression"]⟩,
      ⟨{.loop, .decision, .nesting}, ["while_expression", "loop_expression", "for_expression"]⟩,
      ⟨{.nesting}, ["match_expression"]⟩,
      ⟨{.decision, .condition}, ["match_arm"]⟩,
      ⟨{.exit}, ["return_expression", "try_expression", "break_expression"]⟩,
      ⟨{.statement},
        ["expression_statement", "let_declaration", "use_declaration", "const_item",
          "static_item"]⟩,
      ⟨{.assignment}, ["assignment_expression", "compound_assignment_expr", "let_declaration"]⟩,
      ⟨{.call}, ["call_expression", "macro_invocation"]⟩,
      ⟨{.comment}, ["line_comment", "block_comment"]⟩,
      ⟨{.parameter}, ["parameters", "closure_parameters"]⟩]
  tokens := curlyTokens
  composites := ["string_literal", "raw_string_literal", "char_literal"]
  nonParameters := ["attribute_item", "line_comment", "block_comment"]
  nameFields := [("impl_item", "type")]
  requiresBody := ["mod_item"]
  valuedAssignments := ["let_declaration"]
  valuedExits := ["break_expression"]
  wildcardArms := ["match_arm"]
  visibility :=
    { style := .modifiers
      modifierKinds := ["visibility_modifier"]
      defaultPublic := false
      publicContainers := ["trait_item"] }

end ScopeMetrics.Pack
