import Timeslice.Exchange.Script
import Timeslice.Proofs.Session.Following

/-!
# A command settles once

Whatever the order of the acts, the standing of a submission leaves `pending` once. A call for a
cancellation succeeds exactly if it is what settles the command, and all who ask for the outcome are
told the same.
-/

namespace Timeslice

namespace World

variable {σ τ : Type} {T : Transport σ τ} {w : World σ τ} {ticket : Nat}

section Counts

end Counts

section Final

variable {past rest : List (Act σ)} {sub : Submission τ}

end Final

section Breaking

variable {sub : Submission τ} {now : Nat}

end Breaking

namespace Fetching

def script : Script := ⟨[(⟨none, none, none⟩, ⟨5, .reply (.ok .empty)⟩)], []⟩

def fetch : Command := .fetch "loads" [.sint64 7]

def acts : List (Act Script) :=
  [.submit fetch true, .register 0, .turn 0 0, .poll 0, .notify 0, .cancel 0, .cancel 0, .release 0,
    .turn 0 0, .wait 0, .notify 0, .notify 0]

end Fetching

end World

end Timeslice
