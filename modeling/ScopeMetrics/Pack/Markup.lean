import ScopeMetrics.Pack

/-!
# The CSS and HTML packs

Neither language has scope openers, so a unit of either is one space.
-/

namespace ScopeMetrics.Pack

def css : Pack where
  language := .css
  kinds :=
    [⟨{.statement},
        ["declaration", "import_statement", "charset_statement", "namespace_statement",
          "media_statement", "keyframes_statement", "supports_statement", "at_rule"]⟩,
      ⟨{.comment}, ["comment", "js_comment"]⟩]
  tokens := delimiters ++ [⟨{.delimiter}, [":"]⟩]
  composites := ["string_value"]

def html : Pack where
  language := .html
  kinds :=
    [⟨{.statement}, ["element", "script_element", "style_element", "doctype"]⟩,
      ⟨{.comment}, ["comment"]⟩]
  tokens := [⟨{.delimiter}, ["</", ">", "/>", "\""]⟩]
  composites := ["quoted_attribute_value", "raw_text"]

end ScopeMetrics.Pack
