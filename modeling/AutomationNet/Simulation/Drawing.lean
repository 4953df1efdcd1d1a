/-!
# Drawn orders

The order in which a tick visits the transitions when it is left to chance.

* `Drawing.shuffle` : a list in a drawn order, with the generator for the next one
-/

namespace AutomationNet.Drawing

/-- Draws so many elements out of a list, one after another. -/
def draw : Nat → StdGen → List α → List α × StdGen
  | 0, generator, _ => ([], generator)
  | count + 1, generator, items =>
    let (number, generator) := stdNext generator
    let place := number % items.length
    let (others, generator) := draw count generator (items.eraseIdx place)
    (items[place]?.toList ++ others, generator)

def shuffle (generator : StdGen) (items : List α) : List α × StdGen :=
  draw items.length generator items

end AutomationNet.Drawing
