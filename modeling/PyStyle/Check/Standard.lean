import PyStyle.Check.Complexity
import PyStyle.Check.Decorator
import PyStyle.Check.ImplicitElif
import PyStyle.Check.TypeHint
import PyStyle.Settings

/-!
# The standard checks

- `Registry.standard` — every check that ships, with its limits from the settings.
-/

namespace PyStyle

/-- The checks that ship. -/
def Registry.standard (settings : Settings) : Registry :=
  .ofList
    [.node (Check.cognitiveComplexity settings.maxCognitiveScore),
     .node (Check.moduleComplexity settings.maxCognitiveAverage),
     .node Check.multilineTypeHint,
     .node Check.newStyledDecorator,
     .token Check.implicitElif]

end PyStyle
