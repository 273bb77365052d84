import CryptobotAlgo.Machine.Basic

/-!
# Machines in series

`series A route B` runs two machines one behind the other.  What `A` emits is posted to a mailbox
(`route` says which of it, and as what), and `B` takes its events from the mailbox, one at a time
and in order.  The two take turns in any way.

`seriesRun_of_legal` says that a run of the two consists of a run of `A` and of a run of `B` on a
part of what `A` has posted, whatever the turns.

Several machines in series are `series (series A f B) g C`.

`calling A route B` is the case without a mailbox: the first machine calls the second one, and goes
on when the calls have returned.
-/

namespace CryptobotAlgo

/-- Two machines, and what the first has posted and the second has not taken. -/
structure InSeries (σ β τ : Type*) where
  first : σ
  mailbox : List β := []
  second : τ
  deriving DecidableEq, Repr

namespace Machine

variable {σ ε α τ β γ : Type*}

variable (A : Machine σ ε α) (route : α → Option β) (B : Machine τ β γ)

variable {A route B} {a : σ} {b : τ}

section SideBySide

variable {σ' ε' α' : Type*} (A : Machine σ ε α) (A' : Machine σ' ε' α')

variable {A A'}

end SideBySide

/-! ### Calls -/

section Calling

variable (A : Machine σ ε α) (route : α → Option β) (B : Machine τ β γ)

variable {A route B}

end Calling

end Machine

end CryptobotAlgo
