import StoreClient.Connection

/-!
# What calls do to a line

A call starts on a line with a connection and its network, and leaves another one, whether it
has a result or halts. A statement about a call says what holds of the line that it leaves in
either case, and is put together from those about its parts.
-/

namespace StoreClient

namespace Call

variable {α β : Type} {call : Call α} {pre : Line → Prop} {post : α → Line → Prop}
  {halted : Halt → Line → Prop}

/-- Started on a line with one property, a call leaves a line with another, which may depend
on its result or on why it has none. -/
structure Meets (call : Call α) (pre : Line → Prop) (post : α → Line → Prop)
    (halted : Halt → Line → Prop) : Prop where
  ok : ∀ {line after a}, pre line → call line = (.ok a, after) → post a after
  halt : ∀ {line after reason}, pre line → call line = (.error reason, after) →
    halted reason after

/-- The call leaves a property of its line as it is, whatever comes of it. -/
def Preserves (call : Call α) (property : Line → Prop) : Prop :=
  call.Meets property (fun _ => property) fun _ => property

/-- Two calls in a row, if the first one halts and if it does not. -/
theorem bind_run (call : Call α) (next : α → Call β) (line : Line) :
    (call >>= next) line =
      match call line with
      | (.ok a, middle) => next a middle
      | (.error reason, after) => (.error reason, after) := by
  change (ExceptT.bindCont next (call line).1).run (call line).2 = _
  cases h : call line with
  | mk result after =>
    cases result with
    | ok a => rfl
    | error reason => rfl

/-- A result in another form leaves the line as the call does. -/
theorem map_run (f : α → β) (call : Call α) (line : Line) :
    (f <$> call) line = ((call line).1.map f, (call line).2) := by
  rw [← bind_pure_comp, bind_run]
  cases h : call line with
  | mk result after => cases result <;> rfl

/-- A result that is known already leaves the line as it is. -/
theorem ofExcept_run (result : Except Error α) (line : Line) :
    ofExcept result line = (result.mapError .failed, line) := by
  cases result <;> rfl

namespace Meets

/-- A result that is known already. -/
theorem pure {a : α} (h : ∀ line, pre line → post a line) :
    Meets (Pure.pure a) pre post halted where
  ok hpre hrun := by
    cases hrun
    exact h _ hpre
  halt _ hrun := nomatch hrun

/-- The second call starts where the first one ended. -/
theorem bind {next : α → Call β} {result : β → Line → Prop} (h : call.Meets pre post halted)
    (hnext : ∀ a, (next a).Meets (post a) result halted) :
    (call >>= next).Meets pre result halted := by
  constructor
  · intro line after b hpre hrun
    rw [bind_run] at hrun
    split at hrun
    · rename_i a middle hcall
      exact (hnext a).ok (h.ok hpre hcall) hrun
    · cases hrun
  · intro line after reason hpre hrun
    rw [bind_run] at hrun
    split at hrun
    · rename_i a middle hcall
      exact (hnext a).halt (h.ok hpre hcall) hrun
    · rename_i reason after hcall
      cases hrun
      exact h.halt hpre hcall

/-- Less may be asked of the line that is left, and more of the one before. -/
theorem mono {less : Line → Prop} {result : α → Line → Prop} {reasons : Halt → Line → Prop}
    (h : call.Meets pre post halted) (hpre : ∀ line, less line → pre line)
    (hpost : ∀ a line, post a line → result a line)
    (hhalted : ∀ reason line, halted reason line → reasons reason line) :
    call.Meets less result reasons where
  ok hless hrun := hpost _ _ (h.ok (hpre _ hless) hrun)
  halt hless hrun := hhalted _ _ (h.halt (hpre _ hless) hrun)

/-- What holds of every line that a call may start on may be assumed. -/
theorem assuming {fact : Prop} (hfact : ∀ line, pre line → fact)
    (h : fact → call.Meets pre post halted) : call.Meets pre post halted where
  ok hpre hrun := (h (hfact _ hpre)).ok hpre hrun
  halt hpre hrun := (h (hfact _ hpre)).halt hpre hrun

/-- Something about the line that the call starts on is given a name. -/
theorem exists_intro {γ : Type} {cases : γ → Line → Prop}
    (h : ∀ c, call.Meets (cases c) post halted) :
    call.Meets (fun line => ∃ c, cases c line) post halted where
  ok hpre hrun := by
    obtain ⟨c, hc⟩ := hpre
    exact (h c).ok hc hrun
  halt hpre hrun := by
    obtain ⟨c, hc⟩ := hpre
    exact (h c).halt hc hrun

/-- A call that fails. -/
theorem fail {e : Error} (h : ∀ line, pre line → halted (.failed e) line) :
    (Call.fail e : Call α).Meets pre post halted where
  ok _ hrun := nomatch hrun
  halt hpre hrun := by
    cases hrun
    exact h _ hpre

/-- Nothing comes after a failure. -/
theorem fail_bind {e : Error} {next : α → Call β} {result : β → Line → Prop}
    (h : ∀ line, pre line → halted (.failed e) line) :
    (Call.fail e >>= next).Meets pre result halted where
  ok _ hrun := nomatch hrun
  halt hpre hrun := by
    cases hrun
    exact h _ hpre

/-- A result in another form. -/
theorem map {after : Line → Prop} (h : call.Meets pre (fun _ => after) halted) (f : α → β) :
    (f <$> call).Meets pre (fun _ => after) halted := by
  rw [← bind_pure_comp]
  exact h.bind fun _ => pure fun _ hline => hline

/-- A result that is known already, or a failure. -/
theorem ofExcept {result : Except Error α} (hok : ∀ a line, result = .ok a → pre line → post a line)
    (herror : ∀ e line, pre line → halted (.failed e) line) :
    (Call.ofExcept result).Meets pre post halted := by
  cases result with
  | ok a => exact pure fun line hpre => hok a line rfl hpre
  | error e => exact fail fun line hpre => herror e line hpre

/-- A change of the connection. -/
theorem update {f : Connection → Connection} {after : Line → Prop}
    (h : ∀ line, pre line → after ⟨f line.conn, line.net⟩) :
    (Call.update f).Meets pre (fun _ => after) halted where
  ok hpre hrun := by
    cases hrun
    exact h _ hpre
  halt _ hrun := nomatch hrun

/-- Looking at the line. -/
theorem get : Meets (MonadState.get : Call Line) pre (fun seen line => seen = line ∧ pre line)
    halted where
  ok hpre hrun := by
    cases hrun
    exact ⟨rfl, hpre⟩
  halt _ hrun := nomatch hrun

/-- A change of the connection if the call fails. -/
theorem onFailure {f : Error → Connection → Connection} {reasons : Halt → Line → Prop}
    (h : call.Meets pre post halted)
    (hfailed : ∀ e line, halted (.failed e) line → reasons (.failed e) ⟨f e line.conn, line.net⟩)
    (hstalled : ∀ line, halted .stalled line → reasons .stalled line) :
    (call.onFailure f).Meets pre post reasons := by
  constructor
  · intro line after a hpre hrun
    unfold Call.onFailure at hrun
    split at hrun
    · cases hrun
    · exact h.ok hpre hrun
  · intro line after reason hpre hrun
    unfold Call.onFailure at hrun
    split at hrun
    · rename_i e middle hcall
      cases hrun
      exact hfailed e middle (h.halt hpre hcall)
    · rename_i hother
      cases reason with
      | failed e => exact absurd hrun (hother e after)
      | stalled => exact hstalled after (h.halt hpre hrun)

end Meets

namespace Preserves

variable {property : Line → Prop}

/-- A result that is known already, or a failure. -/
theorem ofExcept (result : Except Error α) : (Call.ofExcept result).Preserves property :=
  Meets.ofExcept (fun _ _ _ h => h) fun _ _ h => h

/-- Two calls in a row. -/
theorem bind {next : α → Call β} (h : call.Preserves property)
    (hnext : ∀ a, (next a).Preserves property) : (call >>= next).Preserves property :=
  Meets.bind h hnext

/-- Nothing comes after a failure. -/
theorem fail_bind (e : Error) (next : α → Call β) :
    (Call.fail e >>= next).Preserves property := Meets.fail_bind fun _ h => h

/-- What holds afterwards holds whatever the call returns. -/
theorem of_run (h : ∀ line result after, property line → call line = (result, after) →
    property after) : call.Preserves property where
  ok hline hrun := h _ _ _ hline hrun
  halt hline hrun := h _ _ _ hline hrun

end Preserves

end Call

namespace Connection

/-- A handshake leaves what each of its parts leaves: the round trips, and what is made of the
version and of the credentials. -/
theorem handshakeSteps_meets_of {held : Line → Prop} {halted : Halt → Line → Prop}
    (hround : ∀ action, (roundTrip action).Meets held (fun _ => held) halted)
    (hcheck : ∀ version, (Call.ofExcept (checkVersion version)).Meets held (fun _ => held) halted)
    (hask : ∀ answer, (Call.ofExcept (credentialsOf answer)).Meets held (fun _ => held) halted) :
    handshakeSteps.Meets held (fun _ => held) halted := by
  unfold handshakeSteps
  refine (hround _).bind fun version => (hcheck version).bind fun _ =>
    Call.Meets.get.bind fun seen => ?_
  refine Call.Meets.mono ?_ (fun _ h => h.2) (fun _ _ h => h) fun _ _ h => h
  dsimp only
  cases seen.conn.config.auth with
  | none =>
    cases seen.conn.config.defaultNamespace with
    | none => exact .pure fun _ h => h
    | some path => exact (hround _).bind fun _ => .pure fun _ h => h
  | some provider =>
    refine (hask _).bind fun login => (hround _).bind fun _ => ?_
    cases seen.conn.config.defaultNamespace with
    | none => exact .pure fun _ h => h
    | some path => exact (hround _).bind fun _ => .pure fun _ h => h

/-- A handshake keeps what every exchange keeps, if it is kept when the stream is dropped. -/
theorem handshake_preserves_of {property : Line → Prop}
    (hexchange : ∀ actions, (exchange actions).Preserves property)
    (hdrop : ∀ line, property line → property ⟨{ line.conn with stream := none }, line.net⟩) :
    handshake.Preserves property := by
  have hround (action : Action) : (roundTrip action).Preserves property :=
    (hexchange [action]).bind fun _ => .ofExcept _
  have hsteps : handshakeSteps.Preserves property :=
    handshakeSteps_meets_of hround (fun _ => Call.Preserves.ofExcept _)
      fun _ => Call.Preserves.ofExcept _
  exact Call.Meets.onFailure hsteps (fun _ line h => hdrop line h) fun _ h => h

end Connection

end StoreClient
