/-!
# Fader positions

A fader shows a level on a scale that gives most of its travel to the levels
near one. The amplitude `a` stands at the position
`((6 * log2 a + 192) / 198) ^ 8`; one is at about three quarters and the top
of the scale is an amplitude of two. Logarithms and powers are those of double
precision rounded to single precision, everything else is done in single
precision step by step.
-/
namespace MixerRouting.Fader

/-- Whether a level or a position lies on the scale at all. -/
def onScale (x : Float32) : Bool := decide (0 < x) && x.isFinite

/-- The eighth power by three squarings. -/
def eighthPower (x : Float32) : Float32 :=
  let x2 := x * x
  let x4 := x2 * x2
  x4 * x4

/-- The position of an amplitude, between zero and one. -/
def position (amplitude : Float32) : Float32 :=
  if onScale amplitude then
    let travel := (6 * (Float.log2 amplitude.toFloat).toFloat32 + 192) / 198
    let position := eighthPower (if travel < 0 then 0 else travel)
    if 1 < position then 1 else position
  else 0

/-- The amplitude at a position; positions above one count as one. -/
def amplitude (position : Float32) : Float32 :=
  if onScale position then
    let position := if 1 < position then 1 else position
    let travel := (Float.pow position.toFloat 0.125).toFloat32
    (Float.exp2 ((travel * 198 - 192) / 6).toFloat).toFloat32
  else 0

/-- Whether two levels differ by at most `epsilon`. -/
def near (a b epsilon : Float32) : Bool := decide ((a - b).abs ≤ epsilon)

end MixerRouting.Fader
