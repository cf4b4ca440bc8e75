import Unveil.Image.Search
import Unveil.Pass.Inline
import Unveil.Settings

namespace Unveil

def NestedPolicy.ofSettings (s : Settings) : NestedPolicy := if s.nestedAsText then .asText else .defer

/-- What stays the same while a slide is rendered. -/
structure Context where
  settings : Settings
  findImage : ImageFinder
  /-- area of the content -/
  area : Rect

namespace Context

def measure (c : Context) : Measure := c.settings.measure c.area

def policy (c : Context) : NestedPolicy := .ofSettings c.settings

/-- The rules for the text of cells and definitions. -/
def cellRules (c : Context) : InlineRules := ⟨c.policy, false⟩

/-- The rules for lists of the slide. -/
def listRules (c : Context) : InlineRules := ⟨c.policy, true⟩

end Context

/-- What a block of the content is rendered to. -/
structure Block where
  /-- at the origin; none for an omitted or empty block -/
  shape : Option Shape
  flow : Flow
  deferred : List Deferred
  tracker : Tracker

end Unveil
