import StoreClient.Proofs.Sessions

/-!
# The record of a network

The network keeps one record of everything that happened. Cut up by the streams, it is a list
of sessions: what happens on one stream extends the log of that stream alone, and a dial that
gets through begins a new log.
-/

namespace StoreClient

namespace Network

variable {net : Network} {stream : Nat} {events : List Event}

/-- Events of a stream go to the end of its log. -/
theorem logOf_record (h : ∀ event ∈ events, event.stream = stream) :
    (net.record events).logOf stream = net.logOf stream ++ events := by
  have hkept : events.filter (·.stream = stream) = events := by
    rw [List.filter_eq_self]
    intro event hevent
    rw [decide_eq_true_eq]
    exact h event hevent
  rw [logOf, record, List.filter_append, hkept]
  rfl

/-- Events of other streams do not appear in the log of a stream. -/
theorem logOf_record_of_ne (h : ∀ event ∈ events, event.stream ≠ stream) :
    (net.record events).logOf stream = net.logOf stream := by
  have hdropped : events.filter (·.stream = stream) = [] := by
    rw [List.filter_eq_nil_iff]
    intro event hevent
    rw [decide_eq_true_eq]
    exact h event hevent
  rw [logOf, record, List.filter_append, hdropped, List.append_nil]
  rfl

/-- Nothing has happened on streams that were not opened. -/
def Numbered (net : Network) : Prop := ∀ event ∈ net.events, event.stream < net.accepted

/-- What comes of a dial. -/
inductive Dialed (net : Network) : Except IoKind Stream → Network → Prop where
  | refused {after : Network} (kind : IoKind) :
      after.accepted = net.accepted → after.events = net.events → Dialed net (.error kind) after
  | accepted {stream : Stream} {after : Network} :
      stream.number = net.accepted → after.accepted = net.accepted + 1 →
      after.events = net.events ++ [.accepted net.accepted] → Dialed net (.ok stream) after

/-- A dial opens a stream with the next number, or it changes no log. -/
theorem dial_dialed (net : Network) (address : String) :
    Dialed net (net.dial address).1 (net.dial address).2 := by
  unfold dial
  split
  · exact .refused _ rfl rfl
  · split
    · exact .refused _ rfl rfl
    · split
      · exact .refused _ rfl rfl
      · exact .accepted rfl rfl rfl

/-- The streams that were opened from some number on, in order: their logs are sessions, each
under the namespace that is listed for it. -/
structure Records (config : Config) (first : Nat) (paths : List (Option String))
    (net : Network) : Prop where
  accepted_eq : net.accepted = first + paths.length
  numbered : net.Numbered
  session : ∀ i path, paths[i]? = some path →
    Session (first + i) (config.selecting path) (net.logOf (first + i))

namespace Records

variable {config : Config} {first : Nat} {paths : List (Option String)} {after : Network}

/-- What happens on one of the streams is added to its log. -/
theorem record {i : Nat} {path : Option String} (h : net.Records config first paths)
    (hpath : paths[i]? = some path) (hevents : ∀ event ∈ events, event.stream = first + i)
    (hsession : Session (first + i) (config.selecting path) (net.logOf (first + i) ++ events)) :
    (net.record events).Records config first paths := by
  have hi : i < paths.length := (List.getElem?_eq_some_iff.mp hpath).1
  have haccepted := h.accepted_eq
  refine ⟨haccepted, ?_, ?_⟩
  · intro event hevent
    rcases List.mem_append.mp hevent with hevent | hevent
    · exact h.numbered event hevent
    · rw [hevents event hevent]
      change first + i < net.accepted
      omega
  · intro j other hother
    by_cases hij : j = i
    · subst hij
      obtain rfl : path = other := Option.some.inj (hpath.symm.trans hother)
      rw [logOf_record hevents]
      exact hsession
    · have hne : ∀ event ∈ events, event.stream ≠ first + j := by
        intro event hevent
        rw [hevents event hevent]
        omega
      rw [logOf_record_of_ne hne]
      exact h.session j other hother

/-- A dial that fails changes no log. -/
theorem refused (h : net.Records config first paths) (haccepted : after.accepted = net.accepted)
    (hevents : after.events = net.events) : after.Records config first paths := by
  refine ⟨haccepted.trans h.accepted_eq, ?_, fun i path hpath => ?_⟩
  · unfold Numbered
    rw [hevents, haccepted]
    exact h.numbered
  · rw [logOf, hevents]
    exact h.session i path hpath

/-- The log of a stream that was not opened is empty. -/
theorem logOf_accepted (h : net.Records config first paths) : net.logOf net.accepted = [] := by
  rw [logOf, List.filter_eq_nil_iff]
  intro event hevent
  have hlt := h.numbered event hevent
  rw [decide_eq_true_eq]
  omega

/-- A new stream is listed under the namespace that is current, and its log begins. -/
theorem opened (h : net.Records config first paths) (current : Option String)
    (haccepted : after.accepted = net.accepted + 1)
    (hevents : after.events = net.events ++ [.accepted net.accepted]) :
    after.Records config first (paths ++ [current]) ∧
      after.logOf net.accepted = [.accepted net.accepted] := by
  have hcount := h.accepted_eq
  have hnew : ∀ event ∈ [Event.accepted net.accepted], event.stream = net.accepted := by
    simp [Event.stream]
  have hlogOf : ∀ stream,
      after.logOf stream = (net.record [.accepted net.accepted]).logOf stream := by
    intro stream
    rw [logOf, hevents]
    rfl
  have hlog : after.logOf net.accepted = [.accepted net.accepted] := by
    rw [hlogOf, logOf_record hnew, h.logOf_accepted, List.nil_append]
  refine ⟨⟨?_, ?_, ?_⟩, hlog⟩
  · rw [haccepted, hcount, List.length_append, List.length_singleton, Nat.add_assoc]
  · intro event hevent
    rw [haccepted]
    rw [hevents] at hevent
    rcases List.mem_append.mp hevent with hevent | hevent
    · exact Nat.lt_succ_of_lt (h.numbered event hevent)
    · rw [hnew event hevent]
      exact Nat.lt_succ_self _
  · intro i path hpath
    by_cases hi : i < paths.length
    · have hother : ∀ event ∈ [Event.accepted net.accepted], event.stream ≠ first + i := by
        intro event hevent
        rw [hnew event hevent]
        omega
      rw [List.getElem?_append_left hi] at hpath
      rw [hlogOf, logOf_record_of_ne hother]
      exact h.session i path hpath
    · have hlast : i = paths.length := by
        have hlt := (List.getElem?_eq_some_iff.mp hpath).1
        rw [List.length_append, List.length_singleton] at hlt
        omega
      subst hlast
      rw [← hcount, hlog]
      exact .served .opened

end Records

end Network

end StoreClient
