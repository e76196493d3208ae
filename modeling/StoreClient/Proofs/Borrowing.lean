import StoreClient.Proofs.Exclusive
import StoreClient.Proofs.Redialing
import Mathlib.Data.List.Nodup

/-!
# The ladder of a borrower

A borrower gets the member that has been idle for the longest time. If there is none it opens a new
one, if it may and there is room, and else it waits. Opening dials once, with the settings of the
pool, and if it fails then nothing is left of it: its room can be used again, and what others did
meanwhile they could have done without it.
-/

namespace StoreClient

/-- The network is as it was but for what happened on a stream, and the connection is on no other
one. -/
structure Line.Within (net : Network) (number : Nat) (line : Line) : Prop where
  number_eq : ∀ stream, line.conn.stream = some stream → stream.number = number
  records : ∃ events, line.net = net.record events ∧ ∀ event ∈ events, event.stream = number

/-- More happens on the stream. -/
theorem Line.Within.record {net : Network} {number : Nat} {line : Line} (h : line.Within net number)
    {conn : Connection} {events : List Event}
    (hnumber : ∀ stream, conn.stream = some stream → stream.number = number)
    (hevents : ∀ event ∈ events, event.stream = number) :
    Line.Within net number ⟨conn, line.net.record events⟩ := by
  obtain ⟨before, hbefore, hall⟩ := h.records
  refine ⟨hnumber, before ++ events, ?_, fun event hmem => ?_⟩
  · rw [hbefore, Network.record_record]
  · exact (List.mem_append.mp hmem).elim (hall event) (hevents event)

namespace Connection

variable {net after : Network} {number : Nat} {config : Config}

end Connection

namespace Pool

variable {pool rest : Pool} {member : Member} {wouldWait : Bool}

end Pool

namespace Ledger

variable {capacity : Nat} {ledger before after : Ledger} {id : Nat}

end Ledger

namespace Desk

variable {desk after : Desk}

/-- A borrower gets an error, on whatever the network has become. -/
def Fails (desk after : Desk) : Prop :=
  ∃ net wouldWait e, borrow { desk with net } wouldWait = (.failed e, after)

end Desk

end StoreClient
