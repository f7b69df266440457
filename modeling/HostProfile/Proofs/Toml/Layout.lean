import HostProfile.Proofs.Run
import HostProfile.Toml.Layout

/-!
# What is skipped

Nothing is skipped in front of a character that begins neither a space nor a line break nor a
comment. Before that, a space or a line feed more makes no difference.
-/

namespace HostProfile.Toml

variable {cs : List Char}

/-- Begins a line break. -/
def isBreak (c : Char) : Bool := c == '\n' || c == '\r'

/-- May belong to a space, a line break or a comment. -/
def isGap (c : Char) : Bool := isSpace c || isBreak c || c == '#'

theorem stops_isSpace (stops : Stops isGap cs) : Stops isSpace cs :=
  stops.mono fun c space => by simp_all [isGap]

theorem stops_isBreak (stops : Stops isGap cs) : Stops isBreak cs :=
  stops.mono fun c feed => by simp_all [isGap]

theorem skipSpace_of_stops (stops : Stops isSpace cs) : skipSpace cs = cs := by
  have dropped := dropWhile_run (List.forall_mem_nil _) stops
  rwa [List.nil_append] at dropped

theorem lineBreak?_of_stops (stops : Stops isBreak cs) : lineBreak? cs = none := by
  fun_cases lineBreak? cs with
  | case1 | case2 => exact absurd (stops _ rfl) (by decide)
  | case3 => rfl

theorem skipComment_of_stops (stops : Stops isGap cs) : skipComment cs = cs := by
  fun_cases skipComment cs with
  | case1 => exact absurd (stops '#' rfl) (by decide)
  | case2 => rfl

theorem skipLines_of_stops (stops : Stops isGap cs) : skipLines cs = cs := by
  have space := skipSpace_of_stops (stops_isSpace stops)
  have no_break : lineBreak? (skipComment (skipSpace cs)) = none := by
    rw [space, skipComment_of_stops stops, lineBreak?_of_stops (stops_isBreak stops)]
  rw [skipLines]
  split
  · next broken => simp [no_break] at broken
  · exact space

theorem skipLines_space (cs : List Char) : skipLines (' ' :: cs) = skipLines cs := by
  rw [skipLines.eq_def, skipLines.eq_def cs]
  rfl

theorem skipLines_feed (cs : List Char) : skipLines ('\n' :: cs) = skipLines cs := by
  rw [skipLines.eq_def]
  rfl

end HostProfile.Toml
