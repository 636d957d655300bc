import Mathlib.Data.List.Induction
import Lindenmayer.Config

/-
  The configuration of a list of settings has for each key
  the value of the last setting of that key, or else the
  default.

  Key definitions include:
    * `Config.number`
    * `Config.color`
    * `Setting.number?`
    * `Setting.color?`

  Correctness is proven by:
    * `Config.number_ofSettings`
    * `Config.color_ofSettings`
    * `Config.ext_of_keys`
-/

------------------------------------------------------------
-- Settings by Key
------------------------------------------------------------

namespace Lindenmayer

namespace Config

/- The number that a configuration has for a key. -/
def number
    (c : Config) : DecimalKey → Float
  | .step => c.step
  | .stepFactor => c.stepFactor
  | .angle => c.angle
  | .angleFactor => c.angleFactor
  | .lineWidth => c.lineWidth
  | .lineWidthFactor => c.lineWidthFactor

/- The color that a configuration has for a key. -/
def color
    (c : Config) : TextKey → String
  | .background => c.background
  | .pen => c.pen

/- Configurations that agree on all keys are the same. -/
theorem ext_of_keys
    {c d : Config}
    (hNumbers : ∀ k, c.number k = d.number k)
    (hColors : ∀ k, c.color k = d.color k) :
    c = d := by
  cases c
  cases d
  rw [Config.mk.injEq]
  exact
    ⟨hNumbers .step, hNumbers .stepFactor, hNumbers .angle,
      hNumbers .angleFactor, hNumbers .lineWidth,
      hNumbers .lineWidthFactor, hColors .background,
      hColors .pen⟩

end Config

namespace Setting

/- The number that a setting gives a key. -/
def number?
    (k : DecimalKey) : Setting → Option Float
  | .decimal k' x => if k' = k then some x else none
  | .text _ _ => none

/- The color that a setting gives a key. -/
def color?
    (k : TextKey) : Setting → Option String
  | .decimal _ _ => none
  | .text k' s => if k' = k then some s else none

end Setting

namespace Config

/- A setting changes the number of its key only. -/
@[simp] theorem number_set
    (k : DecimalKey)
    (c : Config)
    (s : Setting) :
    (c.set s).number k = (s.number? k).getD (c.number k) := by
  rcases s with ⟨k', x⟩ | ⟨k', u⟩ <;>
  · cases k' <;> cases k <;> rfl

@[simp] theorem color_set
    (k : TextKey)
    (c : Config)
    (s : Setting) :
    (c.set s).color k = (s.color? k).getD (c.color k) := by
  rcases s with ⟨k', x⟩ | ⟨k', u⟩ <;>
  · cases k' <;> cases k <;> rfl

/-
  A value that every setting may change is that of the last
  setting that does, or else the default.
-/
theorem ofSettings_eq_getLast?
    {β : Type}
    (value : Config → β)
    (value? : Setting → Option β)
    (hSet :
      ∀ c s, value (c.set s) = (value? s).getD (value c))
    (settings : List Setting) :
    value (ofSettings settings) =
      (settings.filterMap value?).getLast?.getD
        (value {}) := by
  induction settings using List.reverseRecOn with
  | nil => rfl
  | append_singleton settings s ih =>
      rw [ofSettings_append, List.foldl_cons, List.foldl_nil,
        hSet, ih, List.filterMap_append, List.getLast?_append]
      cases hValue : value? s with
      | none => simp [hValue]
      | some v => simp [hValue]

/- A key has the number of its last setting. -/
theorem number_ofSettings
    (settings : List Setting)
    (k : DecimalKey) :
    (ofSettings settings).number k =
      (settings.filterMap (Setting.number? k)).getLast?.getD
        (number {} k) :=
  ofSettings_eq_getLast? (fun c => c.number k) _
    (number_set k) settings

theorem color_ofSettings
    (settings : List Setting)
    (k : TextKey) :
    (ofSettings settings).color k =
      (settings.filterMap (Setting.color? k)).getLast?.getD
        (color {} k) :=
  ofSettings_eq_getLast? (fun c => c.color k) _
    (color_set k) settings

end Config

end Lindenmayer
