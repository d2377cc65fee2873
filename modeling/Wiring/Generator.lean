/-!
Contract: the source of random initial values.

What a generator draws is a parameter: at every place it gives some value and the place after the draw. Here it is
only said how draws follow one another and when a sample is drawn again.
-/

namespace Wiring

structure Generator where
  /-- A value between the bound and its opposite. -/
  uniformAt : Float32 → Nat → Float32 × Nat
  /-- A sample of the standard normal distribution. -/
  normalAt : Nat → Float32 × Nat
  place : Nat := 0

namespace Generator

/-- Every draw lies halfway between the centre and the bound, or one deviation. -/
def halfway : Generator where
  uniformAt := fun bound place => (0.5 * bound, place + 1)
  normalAt := fun place => (0.5, place + 1)

instance : Inhabited Generator := ⟨halfway⟩

def uniform (bound : Float32) (generator : Generator) : Float32 × Generator :=
  let (value, place) := generator.uniformAt bound generator.place
  (value, { generator with place })

def normal (generator : Generator) : Float32 × Generator :=
  let (sample, place) := generator.normalAt generator.place
  (sample, { generator with place })

/-- A normal sample that is drawn again as long as it lies beyond two deviations. Nothing bounds the draws; the value
is left open where no sample is ever kept. -/
def truncatedNormal (deviation : Float32) : Generator → Float32 × Generator :=
  repeatM (m := Id) fun generator =>
    let (sample, generator) := generator.normal
    let scaled := deviation * sample
    if scaled.abs ≤ 2.0 * deviation then pure (.inr (scaled, generator)) else pure (.inl generator)

/-- Draws one value after the other. -/
def draws (draw : Generator → Float32 × Generator) : Nat → Generator → List Float32 × Generator
  | 0, generator => ([], generator)
  | count + 1, generator =>
      let (value, generator) := draw generator
      let (values, generator) := draws draw count generator
      (value :: values, generator)

end Generator

end Wiring
