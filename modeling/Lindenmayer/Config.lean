/-
  This file defines how an expansion is drawn, and the
  settings by which a grammar changes it.

  Key definitions include:
    * `Config`
    * `Setting`
    * `Config.set`
    * `Config.ofSettings`

  Correctness is proven by:
    * `Config.ofSettings_append`
-/

namespace Lindenmayer

------------------------------------------------------------
-- Configurations
------------------------------------------------------------

/-
  The length of a step, the angle of a turn in degrees and
  the width of a line at the start, the factors by which they
  change, and the two colors.
-/
structure Config where
  step : Float := 10.0
  stepFactor : Float := 1.0
  angle : Float := 90.0
  angleFactor : Float := 1.0
  lineWidth : Float := 1.0
  lineWidthFactor : Float := 1.0
  background : String := "white"
  pen : String := "black"
deriving DecidableEq

instance : Inhabited Config :=
  ⟨{}⟩

------------------------------------------------------------
-- Settings
------------------------------------------------------------

/- The keys of settings that are numbers. -/
inductive DecimalKey where
  | step
  | stepFactor
  | angle
  | angleFactor
  | lineWidth
  | lineWidthFactor
deriving DecidableEq, Repr

namespace DecimalKey

/- All number keys, in the order they are tried. -/
def all : List DecimalKey :=
  [.step, .stepFactor, .angle, .angleFactor, .lineWidth,
    .lineWidthFactor]

/- The key as it is written in a grammar. -/
def name : DecimalKey → String
  | .step => "starting_step"
  | .stepFactor => "step_multiplier"
  | .angle => "starting_angle"
  | .angleFactor => "angle_multiplier"
  | .lineWidth => "starting_line_width"
  | .lineWidthFactor => "line_width_multiplier"

/- Every number key is tried. -/
theorem mem_all
    (k : DecimalKey) :
    k ∈ all := by
  cases k <;> decide

end DecimalKey

/- The keys of settings that are texts. -/
inductive TextKey where
  | background
  | pen
deriving DecidableEq, Repr

namespace TextKey

/- All text keys, in the order they are tried. -/
def all : List TextKey :=
  [.background, .pen]

/- The key as it is written in a grammar. -/
def name : TextKey → String
  | .background => "background_color"
  | .pen => "pen_color"

/- Every text key is tried. -/
theorem mem_all
    (k : TextKey) :
    k ∈ all := by
  cases k <;> decide

end TextKey

/- A setting gives a key a value. -/
inductive Setting where
  | decimal (k : DecimalKey) (x : Float)
  | text (k : TextKey) (s : String)
deriving DecidableEq

namespace Setting

/- The key of a setting as it is written in a grammar. -/
def name : Setting → String
  | .decimal k _ => k.name
  | .text k _ => k.name

end Setting

namespace Config

/- Change a configuration by a setting. -/
def set
    (c : Config) : Setting → Config
  | .decimal .step x => { c with step := x }
  | .decimal .stepFactor x => { c with stepFactor := x }
  | .decimal .angle x => { c with angle := x }
  | .decimal .angleFactor x => { c with angleFactor := x }
  | .decimal .lineWidth x => { c with lineWidth := x }
  | .decimal .lineWidthFactor x =>
      { c with lineWidthFactor := x }
  | .text .background s => { c with background := s }
  | .text .pen s => { c with pen := s }

/-
  The configuration that settings make of the default one.
  The last setting of a key wins.
-/
def ofSettings
    (settings : List Setting) : Config :=
  settings.foldl set {}

/- Settings are made one after the other. -/
theorem ofSettings_append
    (a b : List Setting) :
    ofSettings (a ++ b) = b.foldl set (ofSettings a) := by
  simp [ofSettings]

end Config

end Lindenmayer
