/-!
# Topic patterns

A key is cut at its dots into segments; an empty segment is a segment. A pattern
is a key whose segments `*` and `#` are wildcards: `*` stands for exactly one
segment, `#` for any number of them. `Matches` says which keys a pattern admits;
it does not say in which order queues are found.
-/
namespace BrokerCluster.Routing

/-- The pattern segment that stands for exactly one segment. -/
def oneSegment : String := "*"

/-- The pattern segment that stands for any number of segments. -/
def manySegments : String := "#"

/-- Whether a segment of a pattern is a wildcard. -/
def isWildcard (segment : String) : Bool := segment == oneSegment || segment == manySegments

/-- The parts of a key between its dots. There is always at least one. -/
def segments (key : String) : List String := (key.toList.splitOn '.').map String.ofList

/-- The segments `key` are admitted by the pattern segments `pattern`. -/
inductive Matches : (pattern key : List String) → Prop where
  | nil : Matches [] []
  | one {pattern key : List String} (segment : String) :
      Matches pattern key → Matches (oneSegment :: pattern) (segment :: key)
  | manyNone {pattern key : List String} :
      Matches pattern key → Matches (manySegments :: pattern) key
  | manyMore {pattern key : List String} (segment : String) :
      Matches (manySegments :: pattern) key → Matches (manySegments :: pattern) (segment :: key)
  | literal {pattern key : List String} {segment : String} :
      isWildcard segment = false → Matches pattern key →
      Matches (segment :: pattern) (segment :: key)

theorem segments_ne_nil (key : String) : segments key ≠ [] := by
  simp [segments, List.splitOn, List.splitOnP_ne_nil]

/-- Segments joined by dots give the key back. -/
theorem intercalate_segments (key : String) : ".".intercalate (segments key) = key := by
  apply String.toList_inj.1
  rw [String.toList_intercalate]
  simp [segments, Function.comp_def, List.intercalate_splitOn]

/-- Different keys have different segments. -/
theorem segments_injective {a b : String} (h : segments a = segments b) : a = b := by
  rw [← intercalate_segments a, h, intercalate_segments]

end BrokerCluster.Routing
