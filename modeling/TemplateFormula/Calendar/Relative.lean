import TemplateFormula.Calendar.Span
import TemplateFormula.Number.Layout

/-!
# Relative descriptions

How far a date lies from now, in words. Each step of the scale is chosen by the distance rounded in
its own unit.
-/

namespace TemplateFormula.Calendar

def counted (n : Float) (unit : String) : String := Number.text n ++ " " ++ unit

def distanceText (seconds : Float) : String :=
  let minutes := Number.roundAway (seconds / 60)
  let hours := Number.roundAway (seconds / 3600)
  let days := Number.roundAway (seconds / 86400)
  let months := Number.roundAway (days / 30.4)
  let years := Number.roundAway (days / 365)
  if seconds < 45 then "a few seconds"
  else if seconds < 90 then "a minute"
  else if minutes < 45 then counted minutes "minutes"
  else if minutes < 90 then "an hour"
  else if hours < 22 then counted hours "hours"
  else if hours < 36 then "a day"
  else if days < 26 then counted days "days"
  else if days < 45 then "a month"
  else if days < 320 then counted months "months"
  else if days < 548 then "a year"
  else counted years "years"

def relativeText (s now : Stamp) : String :=
  let seconds := s.secondsSince now
  let distance := distanceText (Float.ofNat seconds.natAbs)
  if 0 < seconds then "in " ++ distance else distance ++ " ago"

end TemplateFormula.Calendar
