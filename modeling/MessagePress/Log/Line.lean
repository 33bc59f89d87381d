import MessagePress.Log.Level

/-! Lines of the log. -/

namespace MessagePress.Log

structure Line where
  level : Level
  text : String
  deriving DecidableEq, Repr

/-- A line with its level in front. -/
def Line.shown (line : Line) : String := line.level.label ++ " " ++ line.text

end MessagePress.Log
