import Typikon.Calendar.LiturgicalDay

/-!
Relative topics. A topic that ends in a star names a family of library entries, and stands for one
of them on each liturgical day:

- `oc.*`, the Octoechos, for the mode and the day of the week;
- `me.*`, the Menaion, for the month and the day;
- `le.go.eo.*`, the Resurrection Gospels, for the eothinon;
- `le.go.lu.*`, the Lukan Gospels, for the day of the Lukan cycle.
-/

namespace Typikon

/-- The topics of the Octoechos, which alone take a mode or day of their own. -/
def IsOctoechosTopic (topic : String) : Prop :=
  ['o', 'c'] <+: topic.toList

instance (topic : String) : Decidable (IsOctoechosTopic topic) :=
  inferInstanceAs (Decidable (_ <+: _))

namespace LiturgicalDay

/-- The topic that a topic stands for on a day. In the Octoechos a mode or day of the week may be
given in place of the day's own. -/
def topic (d : LiturgicalDay) (topic : String) (mode weekday : Option Nat) : String :=
  if topic = "oc.*" then
    s!"oc.m{mode.getD d.modeOfWeek}.d{weekday.getD d.weekday.number}"
  else if topic = "me.*" then
    s!"me.m{Text.Decimal.padded 2 d.month}.d{Text.Decimal.padded 2 d.day}"
  else if topic = "le.go.eo.*" then
    s!"le.go.eo.w{Text.Decimal.padded 2 d.eothinon}"
  else if topic = "le.go.lu.*" then
    s!"le.go.lu.d{d.daysSinceLukanStart}"
  else topic

end LiturgicalDay

end Typikon
