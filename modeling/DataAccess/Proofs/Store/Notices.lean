import DataAccess.Proofs.Store.Calls
import DataAccess.Proofs.Store.Planning

/-!
# Who is told what

Whatever a store is asked, its listeners are told of a failure once, if the service failed or an
entity was missing, and of nothing else. We follow an action along its parts: parts that ask the
service unguarded tell no one, a guard tells of the failure that it hands back, and an action stops
at its first failure, so that nothing is told twice.

- `Error.isReported`, `Escalation.due`: what is to be told, and to whom.
- `Context.told`: the state after some notices. `Escalation.inform_eq_told` and
  `Escalation.reject_eq_told`: one round of notices gives those that are due.
- `Action.Quiet`, `Action.Reports`: actions that tell no one, and actions that tell what their
  result calls for. Both are closed under sequence.
- `Action.Checked`: actions that find out what is wrong with a request before they ask anything.
- `Store.notices_call`: what every call of a store tells, and what is wrong with requests to read.
-/

namespace DataAccess

/-- Whether listeners are told of an error: that the service failed, or that an entity is
missing. -/
def Error.isReported : Error → Bool
  | remote _ | notFound => true
  | _ => false

/-- What the shared slot holds after some notices, one after the other. -/
def Notice.leaveAll (told : List Notice) (slot : Option Listener) : Option Listener :=
  told.foldl (fun slot notice => notice.listener.leave slot) slot

/-- The notices that a result calls for, when the shared slot holds `shared`: the error as it is
handed back, to the own listener and then to the one that the own listener leaves in the slot. -/
def Escalation.due {α : Type} (escalation : Escalation) (shared : Option Listener) :
    Except Error α → List Notice
  | .ok _ => []
  | .error e =>
    if e.isReported then
      let first := escalation.own.toList.map (Notice.mk · e)
      let slot := Notice.leaveAll first shared
      first ++ if escalation.followsShared then slot.toList.map (Notice.mk · e) else []
    else []

namespace Error

/-- Listeners are told of everything but misuse of the library, faults of a configuration and
requests that were broken off. -/
theorem isReported_eq_false_iff {e : Error} :
    e.isReported = false ↔
      e.isStructural = true ∨ (∃ fault, e = .configuration fault) ∨ e = .unsortable := by
  cases e <;> simp [isReported, isStructural]

/-- A failure of the service is told, unless the request was broken off. -/
theorem isReported_toRemote {e : Error} (h : e ≠ .unsortable) : e.toRemote.isReported = true := by
  cases e with
  | unsortable => exact absurd rfl h
  | _ => rfl

/-- A failure of the service is no misuse, and the configuration is not at fault. -/
theorem toRemote_cases (e : Error) :
    e.toRemote = .unsortable ∨ ∃ text, e.toRemote = .remote text := by
  cases e with
  | unsortable => exact .inl rfl
  | _ => exact .inr ⟨_, rfl⟩

/-- What is wrong with a configuration is told to no one. -/
theorem isReported_of_configuration {e : Error} (h : ∃ fault, e = .configuration fault) :
    e.isReported = false :=
  isReported_eq_false_iff.2 (.inr (.inl h))

/-- What is wrong with a criterion is told to no one. -/
theorem AboutCriterion.isReported_eq_false {e : Error} (h : e.AboutCriterion) :
    e.isReported = false := by
  cases h <;> rfl

/-- What is wrong with a criterion is not a missing sort key. -/
theorem AboutCriterion.ne_noSortBefore {e : Error} (h : e.AboutCriterion) :
    e ≠ .noSortBefore := by
  rintro rfl
  cases h

end Error

namespace Context

variable {σ : Type} (c : Context σ)

/-- The state after some notices were given, one after the other. -/
def told (notices : List Notice) : Context σ :=
  { c with notices := c.notices ++ notices, shared := Notice.leaveAll notices c.shared }

theorem told_nil : c.told [] = c := by
  unfold told
  rw [List.append_nil]
  rfl

theorem told_told (first second : List Notice) :
    (c.told first).told second = c.told (first ++ second) := by
  unfold told Notice.leaveAll
  rw [List.append_assoc, List.foldl_append]

theorem notify_eq_told (listener? : Option Listener) (e : Error) :
    c.notify listener? e = c.told (listener?.toList.map (Notice.mk · e)) := by
  cases listener? with
  | none => exact c.told_nil.symm
  | some listener => rfl

end Context

namespace Escalation

variable {σ α : Type} (escalation : Escalation)

theorem due_of_not_reported (shared : Option Listener) {e : Error} (h : e.isReported = false) :
    escalation.due shared (.error e : Except Error α) = [] :=
  if_neg (Bool.eq_false_iff.1 h)

theorem due_of_reported (shared : Option Listener) {e : Error} (h : e.isReported = true) :
    escalation.due shared (.error e : Except Error α) =
      let first := escalation.own.toList.map (Notice.mk · e)
      let slot := Notice.leaveAll first shared
      first ++ if escalation.followsShared then slot.toList.map (Notice.mk · e) else [] :=
  if_pos h

/-- Informing the listeners of an error that is to be told gives the notices that are due. -/
theorem inform_eq_told {e : Error} (h : e.isReported = true) (c : Context σ) :
    escalation.inform e c = c.told (escalation.due c.shared (.error e : Except Error α)) := by
  let first := escalation.own.toList.map (Notice.mk · e)
  have hslot : (escalation.installed (c.told first).shared).toList.map (Notice.mk · e) =
      if escalation.followsShared then (c.told first).shared.toList.map (Notice.mk · e)
      else [] := by
    unfold installed
    cases escalation.followsShared <;> rfl
  unfold inform
  rw [escalation.due_of_reported c.shared h, Context.notify_eq_told, Context.notify_eq_told]
  dsimp only
  rw [hslot, Context.told_told]
  rfl

/-- A failure that is handed back is told as due. -/
theorem reject_eq_told (e : Error) (c : Context σ) :
    escalation.reject e c =
      c.told (escalation.due c.shared (.error e.toRemote : Except Error α)) := by
  unfold reject
  split
  · rename_i h
    subst h
    exact c.told_nil.symm
  · exact escalation.inform_eq_told (Error.isReported_toRemote ‹_›) c

end Escalation

namespace Action

variable {σ α β : Type}

/-! ## Actions that tell no one -/

/-- The action tells no one and leaves the shared slot alone. -/
def Quiet (x : Action σ α) : Prop :=
  ∀ c, ∃ r s, x.perform c = (r, { c with service := s })

theorem quiet_pure (a : α) : (pure a : Action σ α).Quiet := fun c => ⟨.ok a, c.service, rfl⟩

theorem quiet_throw (e : Error) : (throw e : Action σ α).Quiet :=
  fun c => ⟨.error e, c.service, rfl⟩

theorem quiet_serve (f : σ → Except Error α × σ) : (serve f).Quiet :=
  fun c => ⟨(f c.service).1, (f c.service).2, rfl⟩

theorem Quiet.bind {x : Action σ α} {f : α → Action σ β} (hx : x.Quiet)
    (hf : ∀ a, (f a).Quiet) : (x >>= f).Quiet := by
  intro c
  obtain ⟨r, s, h⟩ := hx c
  cases r with
  | ok a =>
    rw [perform_bind_ok h]
    exact hf a _
  | error e => exact ⟨.error e, s, perform_bind_error h⟩

/-! ## Actions that tell what is due -/

/-- The action tells listeners what its result calls for and nothing else, and leaves the shared
slot to these. -/
def Reports (escalation : Escalation) (x : Action σ α) : Prop :=
  ∀ c, ∃ r s, x.perform c = (r, { c.told (escalation.due c.shared r) with service := s })

variable {escalation : Escalation}

/-- An action that tells no one need not tell anyone if it fails with no error that is to be
told. -/
theorem Quiet.reports {x : Action σ α} (hx : x.Quiet)
    (h : ∀ c e, (x.perform c).1 = .error e → e.isReported = false) : x.Reports escalation := by
  intro c
  obtain ⟨r, s, hr⟩ := hx c
  have hdue : escalation.due c.shared r = [] := by
    cases r with
    | ok a => rfl
    | error e =>
      refine escalation.due_of_not_reported c.shared (h c e ?_)
      rw [hr]
  refine ⟨r, s, ?_⟩
  rw [hdue, c.told_nil]
  exact hr

theorem reports_inspect (f : σ → α) : (inspect f).Reports escalation :=
  Quiet.reports (fun c => ⟨.ok (f c.service), c.service, rfl⟩) fun _ _ h => nomatch h

theorem reports_pure (a : α) : (pure a : Action σ α).Reports escalation :=
  (quiet_pure a).reports fun _ _ h => nomatch h

/-- A result that was found without the service is told to no one. -/
theorem reports_ofExcept {r : Except Error α} (h : ∀ e, r = .error e → e.isReported = false) :
    (ofExcept r : Action σ α).Reports escalation :=
  Quiet.reports (fun c => ⟨r, c.service, rfl⟩) fun _ => h

/-- An action under guard tells of its failure, if it tells no one by itself. -/
theorem reports_guard {x : Action σ α} (hx : x.Quiet) :
    (escalation.guard x).Reports escalation := by
  intro c
  obtain ⟨r, s, h⟩ := hx c
  cases r with
  | ok a =>
    refine ⟨.ok a, s, ?_⟩
    rw [escalation.guard_ok h]
    exact congrArg (fun c : Context σ => (Except.ok a, { c with service := s })) c.told_nil.symm
  | error e =>
    refine ⟨.error e.toRemote, s, ?_⟩
    -- every failure is handed back as one of the service
    rw [escalation.guard_error h, escalation.reject_eq_told e]
    rfl

/-- One action after another: if the first fails it told of that, and the second does nothing; if
the first succeeds it told no one. -/
theorem Reports.bind {x : Action σ α} {f : α → Action σ β} (hx : x.Reports escalation)
    (hf : ∀ a, (f a).Reports escalation) : (x >>= f).Reports escalation := by
  intro c
  obtain ⟨r, s, h⟩ := hx c
  cases r with
  | ok a =>
    have hnone : c.told (escalation.due c.shared (.ok a)) = c := c.told_nil
    rw [hnone] at h
    rw [perform_bind_ok h]
    exact hf a _
  | error e => exact ⟨.error e, s, perform_bind_error h⟩

/-- What follows a result that was found without the service need only report for that result. -/
theorem Reports.ofExcept_bind {r : Except Error α} {f : α → Action σ β}
    (h : ∀ e, r = .error e → e.isReported = false)
    (hf : ∀ a, r = .ok a → (f a).Reports escalation) :
    (ofExcept r >>= f).Reports escalation := by
  cases r with
  | ok a => exact hf a rfl
  | error e =>
    have hreports : (ofExcept (.error e) : Action σ β).Reports escalation :=
      reports_ofExcept fun err herr => h err (congrArg _ (Except.error.inj herr))
    exact hreports

/-! ## Actions that check first -/

/-- The action never fails for a missing sort key, and where it fails for misuse or for a fault of a
configuration, it fails before it does anything. -/
def Checked (x : Action σ α) : Prop :=
  ∀ c e, (x.perform c).1 = .error e →
    e ≠ .noSortBefore ∧
      (e.isStructural = true ∨ (∃ fault, e = .configuration fault) → (x.perform c).2 = c)

theorem checked_guard (x : Action σ α) : (escalation.guard x).Checked := by
  intro c e he
  cases h : x.perform c with
  | mk r c' =>
    cases r with
    | ok a =>
      rw [escalation.guard_ok h] at he
      cases he
    | error err =>
      -- a guard hands back nothing but failures of the service
      rw [escalation.guard_error h] at he
      cases he
      obtain hremote | ⟨text, hremote⟩ := err.toRemote_cases <;> rw [hremote]
      all_goals
        refine ⟨nofun, ?_⟩
        rintro (h | ⟨_, h⟩) <;> cases h

theorem Checked.ofExcept_bind {r : Except Error α} {f : α → Action σ β}
    (h : ∀ e, r = .error e → e ≠ .noSortBefore) (hf : ∀ a, (f a).Checked) :
    (ofExcept r >>= f).Checked := by
  intro c e he
  cases r with
  | ok a => exact hf a c e he
  | error err =>
    cases he
    exact ⟨h _ rfl, fun _ => rfl⟩

/-- What cannot fail may follow. -/
theorem Checked.bind_pure {x : Action σ α} (hx : x.Checked) (f : α → β) :
    (x >>= fun a => pure (f a)).Checked := by
  intro c e he
  cases h : x.perform c with
  | mk r c' =>
    cases r with
    | ok a =>
      rw [perform_bind_ok h] at he
      cases he
    | error err =>
      rw [perform_bind_error h] at he ⊢
      cases he
      have hchecked := hx c e
      rw [h] at hchecked
      exact hchecked rfl

end Action

/-! ## What is wrong with a configuration -/

theorem Store.configuration_of_keyOrError {store : Store} {schema : Schema} {e : Error}
    (h : store.keyOrError schema = .error e) : ∃ fault, e = .configuration fault := by
  unfold keyOrError at h
  split at h <;> cases h
  exact ⟨_, rfl⟩

theorem Store.configuration_of_typeOrError {store : Store} {schema : Schema} {e : Error}
    (h : store.typeOrError schema = .error e) : ∃ fault, e = .configuration fault := by
  unfold typeOrError at h
  split at h <;> cases h
  exact ⟨_, rfl⟩

theorem Store.configuration_of_keyOf {store : Store} {schema : Schema} {values : Record}
    {e : Error} (h : store.keyOf schema values = .error e) : ∃ fault, e = .configuration fault := by
  unfold keyOf at h
  split at h <;> cases h
  exact configuration_of_keyOrError ‹_›

namespace Session

variable {s : Session} {e : Error}

theorem configuration_of_keyOf {type : String} (h : s.keyOf type = .error e) :
    ∃ fault, e = .configuration fault := by
  unfold keyOf at h
  split at h <;> cases h
  exact ⟨_, rfl⟩

theorem configuration_of_create {type : String} {values : Record}
    (h : (s.create type values).1 = .error e) : ∃ fault, e = .configuration fault := by
  unfold create at h
  split at h <;> cases h
  exact configuration_of_keyOf ‹_›

theorem configuration_of_attach {entity : Entity} (h : (s.attach entity).1 = .error e) :
    ∃ fault, e = .configuration fault := by
  unfold attach at h
  split at h <;> cases h
  exact configuration_of_keyOf ‹_›

end Session

namespace Store

open DataAccess.Action

variable (store : Store)

/-! ## Every operation tells what is due -/

theorem reports_keyOf (schema : Schema) (values : Record) :
    (Action.ofExcept (store.keyOf schema values) : Action Session Value).Reports store.escalation :=
  reports_ofExcept fun _ h => Error.isReported_of_configuration (configuration_of_keyOf h)

theorem reports_load (request : LoadRequest) : (store.load request).Reports store.escalation := by
  refine .ofExcept_bind (fun e h => (aboutCriterion_of_loadPlan h).isReported_eq_false) ?_
  intro plan hplan
  rw [← escalation_of_loadPlan hplan]
  exact reports_guard ((quiet_serve _).bind fun response => quiet_pure _)

theorem reports_count (request : LoadRequest) :
    (store.count request).Reports store.escalation := by
  refine .ofExcept_bind (fun e h => (aboutCriterion_of_prepare h).isReported_eq_false) ?_
  intro plan hplan
  rw [← escalation_of_prepare hplan]
  refine reports_guard ((quiet_serve _).bind fun response => ?_)
  cases response.total with
  | some n => exact quiet_pure n
  | none => exact quiet_throw .totalMissing

theorem reports_findRow (wanted : Value) :
    (store.findRow wanted).Reports store.escalation := by
  refine (reports_inspect Session.schema).bind fun schema => ?_
  refine .ofExcept_bind
    (fun e h => Error.isReported_of_configuration (configuration_of_keyOrError h)) ?_
  intro key _
  exact (reports_guard (quiet_serve _)).bind fun response => reports_pure _

/-- A missing entity is told as such, after everything else went well. -/
theorem reports_findEntity (wanted : Value) :
    (store.findEntity wanted).Reports store.escalation := by
  refine (reports_inspect Session.schema).bind fun schema => ?_
  refine .ofExcept_bind
    (fun e h => Error.isReported_of_configuration (configuration_of_typeOrError h)) ?_
  intro type _
  refine (reports_guard (quiet_serve _)).bind fun found => ?_
  cases found with
  | some e => exact reports_pure e
  | none =>
    -- the store reports this by itself, outside of any guard
    intro c
    refine ⟨.error .notFound, c.service, ?_⟩
    exact congrArg (Prod.mk _) (store.escalation.inform_eq_told (α := Entity) rfl c)

theorem reports_commit (entities : List Entity) :
    (store.commit entities).Reports store.escalation :=
  reports_guard (quiet_serve _)

theorem reports_attach (e : Entity) :
    (serve (Session.attach e)).Reports store.escalation :=
  (quiet_serve _).reports fun _ _ h =>
    Error.isReported_of_configuration (Session.configuration_of_attach h)

theorem reports_insert (values : Record) :
    (store.insert values).Reports store.escalation := by
  refine (reports_inspect Session.schema).bind fun schema => ?_
  refine .ofExcept_bind
    (fun e h => Error.isReported_of_configuration (configuration_of_typeOrError h)) ?_
  intro type _
  have hcreate : (serve (Session.create type values)).Reports store.escalation :=
    (quiet_serve _).reports fun _ _ h =>
      Error.isReported_of_configuration (Session.configuration_of_create h)
  refine hcreate.bind fun e => ?_
  split
  · refine (store.reports_commit [e]).bind fun saved => ?_
    exact (store.reports_keyOf schema _).bind fun key => reports_pure _
  · exact (store.reports_keyOf schema _).bind fun key => reports_pure _

theorem reports_update (wanted : Value) (values : Record) :
    (store.update wanted values).Reports store.escalation := by
  refine (store.reports_findEntity wanted).bind fun e => ?_
  dsimp only
  split
  · refine (store.reports_commit [e.setFields values]).bind fun saved => ?_
    cases saved with
    | nil => exact reports_pure _
    | cons first rest =>
      refine (reports_inspect Session.schema).bind fun schema => ?_
      exact (store.reports_keyOf schema _).bind fun key => reports_pure _
  · exact (store.reports_attach _).bind fun _ => reports_pure _

theorem reports_remove (wanted : Value) :
    (store.remove wanted).Reports store.escalation := by
  refine (store.reports_findEntity wanted).bind fun e => ?_
  dsimp only
  split
  · exact (store.reports_commit _).bind fun _ => reports_pure _
  · exact (store.reports_attach _).bind fun _ => reports_pure _

theorem reports_call (call : Call) : (store.call call).Reports store.escalation := by
  cases call with
  | load request => exact (store.reports_load request).bind fun _ => reports_pure _
  | count request => exact (store.reports_count request).bind fun _ => reports_pure _
  | findRow wanted => exact (store.reports_findRow wanted).bind fun _ => reports_pure _
  | insert values => exact (store.reports_insert values).bind fun _ => reports_pure _
  | update wanted values => exact (store.reports_update wanted values).bind fun _ => reports_pure _
  | remove wanted => exact (store.reports_remove wanted).bind fun _ => reports_pure _
  | commit entities => exact (store.reports_commit entities).bind fun _ => reports_pure _

/-! ## Requests to read are checked first -/

theorem checked_read {call : Call} (h : call.reads = true) : (store.call call).Checked := by
  cases call with
  | load request =>
    have hload : (store.load request).Checked :=
      .ofExcept_bind (fun e he => (aboutCriterion_of_loadPlan he).ne_noSortBefore) fun plan =>
        checked_guard _
    exact hload.bind_pure Answer.loaded
  | count request =>
    have hcount : (store.count request).Checked :=
      .ofExcept_bind (fun e he => (aboutCriterion_of_prepare he).ne_noSortBefore) fun plan =>
        checked_guard _
    exact hcount.bind_pure Answer.total
  | findRow wanted =>
    have hfind : (store.findRow wanted).Checked := by
      intro c
      refine Checked.ofExcept_bind (fun e he => ?_) (fun key => (checked_guard _).bind_pure _) c
      obtain ⟨fault, rfl⟩ := configuration_of_keyOrError he
      intro heq
      cases heq
    exact hfind.bind_pure Answer.row
  | _ => cases h

/-- Whatever a store is asked, its listeners are told of the error that it hands back, if the
service failed or an entity is missing, and of nothing otherwise; no one else changes what is in the
shared slot. A request to read never lacks a sort key, and if it is a misuse or the configuration is
at fault, nothing is asked. -/
theorem notices_call (call : Call) (c : Context Session) :
    ∃ answer s,
      (store.call call).perform c =
        (answer,
          { service := s
            notices := c.notices ++ store.escalation.due c.shared answer
            shared := Notice.leaveAll (store.escalation.due c.shared answer) c.shared }) ∧
      (call.reads = true → ∀ e, answer = .error e →
        e ≠ .noSortBefore ∧
          (e.isStructural = true ∨ (∃ fault, e = .configuration fault) → s = c.service)) := by
  obtain ⟨answer, s, h⟩ := store.reports_call call c
  refine ⟨answer, s, h, ?_⟩
  intro hreads e he
  have hchecked := store.checked_read hreads c e
  rw [h] at hchecked
  obtain ⟨hsorted, hsame⟩ := hchecked he
  exact ⟨hsorted, fun hmisuse => congrArg Context.service (hsame hmisuse)⟩

/-- In an outage the own listener is told first and then the one in the slot, which is no longer the
same if the own listener installs another. A filter that is no criterion is told to neither, and
nothing is asked. -/
theorem notices_call_outage :
    let store (reaction : Reaction) : Store :=
      { resource := "customers", escalation := { own := some { name := "store", reaction } } }
    let c : Context Session :=
      { service := { outage := some "down" }, shared := some { name := "application" } }
    let told (reaction : Reaction) (request : LoadRequest) : List (String × Error) :=
      (((store reaction).call (.load request)).perform c).2.notices.map fun notice =>
        (notice.listener.name, notice.error)
    let malformed : LoadRequest := { filter := some (.array []) }
    told .keep {} = [("store", .remote "down"), ("application", .remote "down")] ∧
      told (.install "monitor" .keep) {} =
        [("store", .remote "down"), ("monitor", .remote "down")] ∧
      told .keep malformed = [] ∧
      (((store .keep).call (.load malformed)).perform c).2.service.sent = [] := by
  intro store c told malformed
  let down : Except Error Answer := .error (.remote "down")
  have hdown (reaction : Reaction) :
      told reaction {} = ((store reaction).escalation.due c.shared down).map
        fun notice => (notice.listener.name, notice.error) := by
    obtain ⟨answer, s, h, -⟩ := (store reaction).notices_call (.load {}) c
    have hanswer : answer = down := (congrArg Prod.fst h).symm
    show List.map _ (Context.notices _) = _
    rw [h, hanswer]
    rfl
  obtain ⟨answer, s, h, hread⟩ := (store .keep).notices_call (.load malformed) c
  have hanswer : answer = .error (.malformed (.tooShort 0)) := (congrArg Prod.fst h).symm
  have hs : s = c.service := (hread rfl _ hanswer).2 (.inl rfl)
  refine ⟨(hdown .keep).trans rfl, (hdown (.install "monitor" .keep)).trans rfl, ?_, ?_⟩
  · show List.map _ (Context.notices _) = _
    rw [h, hanswer]
    rfl
  · rw [h, hs]

end Store

end DataAccess
