import XFoilFoam.Submission.AtMostOnce

/-! A cancellation that was cut short, called again. -/
namespace XFoilFoam.Submission
set_option autoImplicit false

section Retry
variable {Request Json Engine : Type} [DecidableEq Engine] {codec : Codec Request Json Engine}
  {v v' : Volume Request Engine} {expectedEngine : Option Engine} {engine : Engine}

/-- `is_cancelled`, as a function of the files. -/
def cancelledIn (v : Volume Request Engine) : Bool := v.job.cancelled || (v.submission.receipts .cancelled).isSome

def readable (codec : Codec Request Json Engine) (v : Volume Request Engine) : Option Request :=
  v.job.request.bind codec.validateJson

def occupiedIn (j : JobDir Engine) : Bool :=
  j.made && (j.request.isSome || j.cancelled || j.notStarted || j.status.present || decide (0 < j.temporaries) || j.artifacts)

/-- Where a cancellation goes: a request that can be read, or the status of a cancellation that left its marker. -/
structure Routes (codec : Codec Request Json Engine) (expectedEngine : Option Engine) (engine : Engine)
    (v : Volume Request Engine) : Prop where
  known : codec.knownEngine (readable codec v) v.job.status.get = some engine
  agrees : expectedEngine.isSome → expectedEngine = some engine
  owned : (readable codec v).isSome ∨ v.job.status.get.isSome ∧ cancelledIn v = true
  receipt : ∀ details, v.submission.receipts .cancelled = some details → details = .requestedEngine engine

structure Untouched (codec : Codec Request Json Engine) (expectedEngine : Option Engine) (engine : Engine)
    (v : Volume Request Engine) : Prop where
  expected : expectedEngine = some engine
  unread : readable codec v = none
  statusless : v.job.status.get = none
  unreceipted : ∀ kind, v.submission.receipts kind = none
  complete : v.submission.temporaries = 0
  unoccupied : occupiedIn v.job = false

/-- Files without a request that a cancellation does not take for its own. -/
structure Wedged (codec : Codec Request Json Engine) (v : Volume Request Engine) : Prop where
  unread : readable codec v = none
  filled : occupiedIn v.job = true
  unowned : v.job.status.get = none ∨ v.job.status.get.isSome ∧ cancelledIn v = false

/-! ## One call -/

omit [DecidableEq Engine] in
theorem run_isCancelled (v : Volume Request Engine) :
    (isCancelled : Act Request Engine Bool).run v = (.ok (cancelledIn v), v) := by
  rw [isCancelled, Task.bind_eq, Task.run_bind_ok (Task.run_read _ v), cancelledIn]
  cases v.job.cancelled with
  | true => rfl
  | false => rfl

omit [DecidableEq Engine] in
theorem isCancelled_bind_always {α : Type} {k : Bool → Act Request Engine α} {I : Volume Request Engine → Prop}
    {Q : Except Failure α → Volume Request Engine → Prop} (hI : I v) (hk : (k (cancelledIn v)).Always I Q v) :
    (isCancelled.bind k).Always I Q v := by
  refine ⟨hI, ?_⟩
  dsimp only
  rw [cancelledIn] at hk
  cases hmarked : v.job.cancelled with
  | true =>
    rw [hmarked, Bool.true_or] at hk
    exact hk
  | false =>
    rw [hmarked, Bool.false_or] at hk
    exact ⟨hI, hk⟩

theorem receipt_always {I : Volume Request Engine → Prop} (hI : I v)
    (hreceipt : ∀ details, v.submission.receipts .cancelled = some details → details = .requestedEngine engine)
    (hstable : ∀ v', v'.job = v.job →
      (∀ details, v'.submission.receipts .cancelled = some details → details = .requestedEngine engine) → I v') :
    (receipt .cancelled (.requestedEngine engine) : Act Request Engine Unit).Always I (fun r _ => r = .ok ()) v := by
  refine Task.Always.read hI ?_
  cases hprevious : v.submission.receipts .cancelled with
  | some details =>
    dsimp only
    rw [if_pos (hreceipt details hprevious)]
    exact ⟨hI, rfl⟩
  | none =>
    refine ⟨hI, hstable _ rfl hreceipt, hstable _ rfl fun details hdetails => ?_, rfl⟩
    simp only [Volume.mapSubmission, Function.update_self, Option.some.injEq] at hdetails
    exact hdetails.symm

theorem cancel_always_of {I : Volume Request Engine → Prop} (hI : I v)
    (hreceipt : ∀ details, v.submission.receipts .cancelled = some details → details = .requestedEngine engine)
    (hstable : ∀ v', v'.job = { v.job with made := true, cancelled := true } →
      (∀ details, v'.submission.receipts .cancelled = some details → details = .requestedEngine engine) → I v') :
    (Codec.cancel engine : Act Request Engine Engine).Always I (fun r _ => r = .ok engine) v := by
  refine Task.Always.modify hI ?_
  have hmarked : I (v.mapJob fun j => { j with made := true, cancelled := true }) := hstable _ rfl hreceipt
  refine (receipt_always hmarked hreceipt fun v' hjob hsame => hstable v' hjob hsame).bind
    (fun _ _ hI' _ => ⟨hI', rfl⟩) fun e v' _ herror => by cases herror

theorem Routes.always (h : Routes codec expectedEngine engine v) :
    (codec.fence expectedEngine).Always (Routes codec expectedEngine engine) (fun r _ => r = .ok engine) v := by
  have hlocked : Routes codec expectedEngine engine (v.mapSubmission fun d => { d with made := true }) :=
    ⟨h.known, h.agrees, h.owned, h.receipt⟩
  refine Task.Always.modify h ?_
  generalize (v.mapSubmission fun d => { d with made := true }) = v₁ at hlocked ⊢
  refine Task.Always.read hlocked (Task.Always.read hlocked ?_)
  have hknown := hlocked.known
  have hroute : ¬((readable codec v₁).isNone ∧ v₁.job.status.get.isNone) := by
    rintro ⟨hrequest, hstatus⟩
    rw [Option.isNone_iff_eq_none] at hrequest hstatus
    have howned := hlocked.owned
    rw [hrequest, hstatus] at howned
    simp at howned
  have hagrees : ¬((some engine).isSome ∧ expectedEngine.isSome ∧ some engine ≠ expectedEngine) :=
    fun hconflict => hconflict.2.2 (hlocked.agrees hconflict.2.1).symm
  have hopen : ¬((readable codec v₁).isNone ∧ ¬cancelledIn v₁ = true) := by
    rintro ⟨hrequest, hcancelled⟩
    rw [Option.isNone_iff_eq_none] at hrequest
    have howned := hlocked.owned
    rw [hrequest] at howned
    exact hcancelled (howned.resolve_left Bool.false_ne_true).2
  rw [readable] at hknown hroute hopen
  dsimp only
  rw [hknown, if_neg hagrees, if_neg hroute]
  refine isCancelled_bind_always hlocked ?_
  rw [if_neg hopen]
  refine cancel_always_of hlocked hlocked.receipt fun v' hjob hreceipt => ⟨?_, hlocked.agrees, ?_, hreceipt⟩
  · rw [readable, hjob]
    exact hlocked.known
  · rw [readable, hjob, cancelledIn, hjob, Bool.true_or]
    exact hlocked.owned.imp id fun howned => ⟨howned.1, rfl⟩

/-- What a cancellation of an unregistered identity may leave behind. -/
def Leaves (codec : Codec Request Json Engine) (expectedEngine : Option Engine) (engine : Engine)
    (before v : Volume Request Engine) : Prop :=
  v.job = before.job ∧ Untouched codec expectedEngine engine v ∨ Wedged codec v ∨
    (v.job.status.get.isSome ∧ cancelledIn v = true) ∧ Routes codec expectedEngine engine v

omit [DecidableEq Engine] in
theorem leaves_wedged {before : Volume Request Engine} (hunread : readable codec v = none) (hmade : v.job.made = true)
    (hany : v.job.notStarted = true ∨ 0 < v.job.temporaries)
    (hunowned : v.job.status.get = none ∨ v.job.status.get.isSome ∧ cancelledIn v = false) :
    Leaves codec expectedEngine engine before v := by
  refine .inr (.inl ⟨hunread, ?_, hunowned⟩)
  obtain hstarted | htemporary := hany
  · simp [occupiedIn, hmade, hstarted]
  · simp [occupiedIn, hmade, htemporary]

theorem Untouched.always (h : Untouched codec expectedEngine engine v) :
    (codec.fence expectedEngine).Always (Leaves codec expectedEngine engine v) (fun r _ => r = .ok engine) v := by
  obtain rfl := h.expected
  have hlocked : Untouched codec (some engine) engine (v.mapSubmission fun d => { d with made := true }) :=
    ⟨h.expected, h.unread, h.statusless, h.unreceipted, h.complete, h.unoccupied⟩
  refine Task.Always.modify (.inl ⟨rfl, h⟩) ?_
  have hjob : (v.mapSubmission fun d => { d with made := true }).job = v.job := rfl
  generalize (v.mapSubmission fun d => { d with made := true }) = v₁ at hlocked hjob ⊢
  have hkept : Leaves codec (some engine) engine v v₁ := .inl ⟨hjob, hlocked⟩
  refine Task.Always.read hkept (Task.Always.read hkept ?_)
  have hunread := hlocked.unread
  rw [readable] at hunread
  dsimp only
  rw [hunread, hlocked.statusless, if_neg (by simp [Codec.knownEngine]), if_pos ⟨rfl, rfl⟩]
  refine Task.Always.read hkept ?_
  rw [if_neg (by simp [hlocked.complete, hlocked.unreceipted])]
  refine Task.Always.read hkept ?_
  rw [if_neg (by rw [← occupiedIn, hlocked.unoccupied]; exact Bool.false_ne_true)]
  -- the file that says nothing was started
  refine Task.Always.bind (Q := fun r v' => r = .ok () ∧ v'.submission = v₁.submission ∧
      v'.job = { v₁.job with made := true, notStarted := true })
    ⟨hkept, leaves_wedged hlocked.unread rfl (.inr (Nat.succ_pos _)) (.inl hlocked.statusless),
      leaves_wedged hlocked.unread rfl (.inl rfl) (.inl hlocked.statusless), rfl, rfl, rfl⟩
    (fun _ v₂ h₂ hwritten => ?_) fun e v' _ hwritten => by cases hwritten.1
  obtain ⟨-, hsubmission₂, hjob₂⟩ := hwritten
  have hunread₂ : readable codec v₂ = none := by
    rw [readable, hjob₂]
    exact hlocked.unread
  have hstatus₂ : v₂.job.status.get = none := by
    rw [hjob₂]
    exact hlocked.statusless
  have hmade₂ : v₂.job.made = true ∧ v₂.job.notStarted = true := by
    rw [hjob₂]
    exact ⟨rfl, rfl⟩
  have hreceipts₂ : v₂.submission.receipts .cancelled = none := by rw [hsubmission₂, hlocked.unreceipted]
  -- the status, which is taken for the cancellation's own only behind a marker
  have hroutes {w : Volume Request Engine} (hrequest : readable codec w = none)
      (hstatus : w.job.status.get.bind (fun status => status.requestedEngine) = some engine) (hcancelled : cancelledIn w = true)
      (hreceipt : ∀ details, w.submission.receipts .cancelled = some details → details = .requestedEngine engine) :
      Leaves codec (some engine) engine v w := by
    have hsome : w.job.status.get.isSome := by
      cases hget : w.job.status.get with
      | none =>
        rw [hget] at hstatus
        cases hstatus
      | some status => rfl
    exact .inr (.inr ⟨⟨hsome, hcancelled⟩, by rw [hrequest]; exact hstatus, fun _ => rfl, .inr ⟨hsome, hcancelled⟩, hreceipt⟩)
  have hleft {w : Volume Request Engine} (hrequest : readable codec w = none) (hmade : w.job.made = true)
      (hstarted : w.job.notStarted = true)
      (hstatus : w.job.status.get.bind (fun status => status.requestedEngine) = some engine)
      (hreceipt : w.submission.receipts .cancelled = none) : Leaves codec (some engine) engine v w := by
    cases hcancelled : cancelledIn w with
    | true => exact hroutes hrequest hstatus hcancelled fun details hdetails => by rw [hreceipt] at hdetails; cases hdetails
    | false =>
      refine leaves_wedged hrequest hmade (.inl hstarted) (.inr ⟨?_, hcancelled⟩)
      cases hget : w.job.status.get with
      | none =>
        rw [hget] at hstatus
        cases hstatus
      | some status => rfl
  refine Task.Always.bind (Q := fun r v' => r = .ok () ∧ v'.submission = v₂.submission ∧ v'.job.request = v₂.job.request ∧
      v'.job.made = true ∧ v'.job.notStarted = true ∧
        v'.job.status.get.bind (fun status => status.requestedEngine) = some engine)
    (Task.Always.read h₂ ?_) (fun _ v₃ h₃ hwritten => ?_) fun e v' _ hwritten => by cases hwritten.1
  · rw [hstatus₂]
    exact ⟨h₂, leaves_wedged hunread₂ rfl (.inl hmade₂.2) (.inl hstatus₂), hleft hunread₂ rfl hmade₂.2 rfl hreceipts₂, rfl,
      rfl, rfl, rfl, hmade₂.2, rfl⟩
  · obtain ⟨-, hsubmission₃, hrequest₃, hmade₃, hstarted₃, hstatus₃⟩ := hwritten
    have hunread₃ : readable codec v₃ = none := by
      rw [readable, hrequest₃]
      exact hunread₂
    have hreceipts₃ : v₃.submission.receipts .cancelled = none := by rw [hsubmission₃, hreceipts₂]
    refine cancel_always_of h₃ (fun details hdetails => by rw [hreceipts₃] at hdetails; cases hdetails)
      fun v' hjob' hreceipt' => hroutes ?_ ?_ ?_ hreceipt'
    · rw [readable, hjob']
      exact hunread₃
    · rw [hjob']
      exact hstatus₃
    · rw [cancelledIn, hjob', Bool.true_or]

theorem Wedged.refused (h : Wedged codec v) (expectedEngine : Option Engine) :
    ∃ e, ((codec.fence expectedEngine).run v).1 = .error e := by
  have hlocked : Wedged codec (v.mapSubmission fun d => { d with made := true }) := ⟨h.unread, h.filled, h.unowned⟩
  rw [Codec.fence, Task.bind_eq, lock, Task.run_bind_ok (Task.run_modify _ v)]
  generalize (v.mapSubmission fun d => { d with made := true }) = v₁ at hlocked ⊢
  rw [Codec.readRequest, Task.bind_eq, Task.run_bind_ok (Task.run_read _ v₁), readStatus, Task.bind_eq,
    Task.run_bind_ok (Task.run_read _ v₁)]
  have hunread := hlocked.unread
  rw [readable] at hunread
  rw [hunread]
  dsimp only
  split
  · exact ⟨_, rfl⟩
  · obtain hstatus | ⟨hstatus, hcancelled⟩ := hlocked.unowned
    · rw [hstatus, if_pos ⟨rfl, rfl⟩]
      cases expectedEngine with
      | none => exact ⟨_, rfl⟩
      | some engine =>
        rw [Codec.cancelUnregistered, Task.bind_eq, registered, Task.run_bind_ok (Task.run_read _ v₁)]
        split
        · exact ⟨_, rfl⟩
        · rw [Task.bind_eq, occupied, Task.run_bind_ok (Task.run_read _ v₁), ← occupiedIn, hlocked.filled]
          exact ⟨_, rfl⟩
    · have hnone : ¬((none : Option Request).isNone = true ∧ v₁.job.status.get.isNone = true) := fun hboth =>
        Option.isSome_iff_ne_none.mp hstatus (Option.isNone_iff_eq_none.mp hboth.2)
      rw [if_neg hnone, Task.bind_eq, Task.run_bind_ok (run_isCancelled v₁), hcancelled]
      exact ⟨_, rfl⟩

theorem engine_of_cancel {e : Engine} (h : ((Codec.cancel e : Act Request Engine Engine).run v).1 = .ok engine) :
    e = engine ∧ ∀ details, v.submission.receipts .cancelled = some details → details = .requestedEngine engine := by
  rw [Codec.cancel, Task.bind_eq, markCancelled, Task.run_bind_ok (Task.run_modify _ v), Task.bind_eq, Task.run_bind,
    receipt, Task.bind_eq, Task.run_bind_ok (Task.run_read _ _)] at h
  dsimp only [Volume.mapJob] at h
  cases hprevious : v.submission.receipts .cancelled with
  | none =>
    rw [hprevious] at h
    exact ⟨Except.ok.inj h, fun _ hdetails => by cases hdetails⟩
  | some details =>
    rw [hprevious] at h
    dsimp only at h
    by_cases hsame : details = .requestedEngine e
    · rw [if_pos hsame] at h
      obtain rfl := Except.ok.inj h
      exact ⟨rfl, fun _ hdetails => (Option.some.inj hdetails).symm.trans hsame⟩
    · rw [if_neg hsame] at h
      cases h

theorem routes_or_untouched (h : ((codec.fence expectedEngine).run v).1 = .ok engine) :
    Routes codec expectedEngine engine v ∨ Untouched codec expectedEngine engine v := by
  have hreturned := h
  rw [Codec.fence, Task.bind_eq, lock, Task.run_bind_ok (Task.run_modify _ v), Codec.readRequest, Task.bind_eq,
    Task.run_bind_ok (Task.run_read _ _), readStatus, Task.bind_eq, Task.run_bind_ok (Task.run_read _ _)] at h
  have hunlocked : (v.mapSubmission fun d => { d with made := true }).job = v.job ∧
      (v.mapSubmission fun d => { d with made := true }).submission = { v.submission with made := true } := ⟨rfl, rfl⟩
  generalize (v.mapSubmission fun d => { d with made := true }) = v₁ at h hunlocked
  obtain ⟨hjob, hsubmission⟩ := hunlocked
  rw [hjob, ← readable] at h
  dsimp only at h
  split at h
  · cases h
  rename_i hagrees
  split at h
  · rename_i hnothing
    simp only [Option.isNone_iff_eq_none] at hnothing
    cases expectedEngine with
    | none => cases h
    | some e =>
      rw [Codec.cancelUnregistered, Task.bind_eq, registered, Task.run_bind_ok (Task.run_read _ v₁)] at h
      split at h
      · cases h
      rename_i hregistered
      rw [Task.bind_eq, occupied, Task.run_bind_ok (Task.run_read _ v₁), ← occupiedIn] at h
      split at h
      · cases h
      rename_i hoccupied
      rw [hsubmission] at hregistered
      simp only [Bool.or_eq_true, decide_eq_true_eq, not_or, Nat.pos_iff_ne_zero, not_not, Bool.not_eq_true,
        Option.isSome_eq_false_iff, Option.isNone_iff_eq_none] at hregistered
      obtain ⟨⟨⟨⟨hcomplete, hdispatching⟩, huncertain⟩, haccepted⟩, hcancelled⟩ := hregistered
      have huntouched : Untouched codec (some e) e v :=
        ⟨rfl, hnothing.1, hnothing.2, fun kind => by cases kind <;> assumption, hcomplete,
          by rwa [hjob, Bool.not_eq_true] at hoccupied⟩
      -- what it returns is the engine that was asked for
      have hengine := (huntouched.always.reaches (Task.reaches_run _ v)).2 _ rfl
      rw [hreturned] at hengine
      obtain rfl := Except.ok.inj hengine
      exact .inr huntouched
  · rename_i hsomething
    rw [Task.bind_eq, Task.run_bind_ok (run_isCancelled v₁), cancelledIn, hjob, hsubmission, ← cancelledIn] at h
    split at h
    · cases h
    rename_i hopen
    cases hknown : codec.knownEngine (readable codec v) v.job.status.get with
    | none =>
      rw [hknown] at h
      cases h
    | some e =>
      rw [hknown] at h hagrees
      obtain ⟨rfl, hreceipt⟩ := engine_of_cancel h
      rw [hsubmission] at hreceipt
      refine .inl ⟨hknown, fun hexpected => ?_, ?_, hreceipt⟩
      · by_contra hother
        exact hagrees ⟨rfl, hexpected, fun hsame => hother hsame.symm⟩
      · cases hrequest : readable codec v with
        | some request => exact .inl rfl
        | none =>
          rw [hrequest] at hsomething hopen
          refine .inr ⟨?_, ?_⟩
          · by_contra hnone
            exact hsomething ⟨rfl, by rwa [Option.isNone_iff_eq_none, ← Option.not_isSome_iff_eq_none]⟩
          · by_contra hcancelled
            exact hopen ⟨rfl, hcancelled⟩

/-! ## Called again -/

/-- A cancellation that was cut short is taken up where it left off: it found a request or a status that can be read, or it
was cut before its first write, or with its status and its marker down. -/
def Resumable (codec : Codec Request Json Engine) (before after : Volume Request Engine) : Prop :=
  (readable codec before).isSome ∨ before.job.status.get.isSome ∨ after.job = before.job ∨
    after.job.status.get.isSome ∧ cancelledIn after = true

/-- The states that calls with one engine lead to, each cut short where it can be taken up. -/
inductive Retried (codec : Codec Request Json Engine) (expectedEngine : Option Engine) (v : Volume Request Engine) :
    Volume Request Engine → Prop where
  | start : Retried codec expectedEngine v v
  | cut {w w' : Volume Request Engine} (before : Retried codec expectedEngine v w)
    (cut : (codec.fence expectedEngine).Reaches w w' none) (resumable : Resumable codec w w') :
    Retried codec expectedEngine v w'

theorem Resumable.iff (h : ((codec.fence expectedEngine).run v).1 = .ok engine)
    (hcut : (codec.fence expectedEngine).Reaches v v' none) :
    ((codec.fence expectedEngine).run v').1 = .ok engine ↔ Resumable codec v v' := by
  obtain hroutes | huntouched := routes_or_untouched h
  · have hroutes' := (hroutes.always.reaches hcut).1
    refine iff_of_true ((hroutes'.always.reaches (Task.reaches_run _ v')).2 _ rfl) ?_
    exact hroutes.owned.imp id fun howned => .inl howned.1
  · obtain ⟨hjob, huntouched'⟩ | hwedged | ⟨hmarked, hroutes'⟩ := (huntouched.always.reaches hcut).1
    · exact iff_of_true ((huntouched'.always.reaches (Task.reaches_run _ v')).2 _ rfl) (.inr (.inr (.inl hjob)))
    · refine iff_of_false (fun hok => ?_) ?_
      · obtain ⟨e, he⟩ := hwedged.refused expectedEngine
        rw [hok] at he
        cases he
      · rintro (hrequest | hstatus | hjob | hmarked)
        · rw [huntouched.unread] at hrequest
          cases hrequest
        · rw [huntouched.statusless] at hstatus
          cases hstatus
        · have hfilled := hwedged.filled
          rw [hjob, huntouched.unoccupied] at hfilled
          cases hfilled
        · obtain hnone | ⟨-, hunmarked⟩ := hwedged.unowned
          · rw [hnone] at hmarked
            cases hmarked.1
          · rw [hunmarked] at hmarked
            cases hmarked.2
    · exact iff_of_true ((hroutes'.always.reaches (Task.reaches_run _ v')).2 _ rfl) (.inr (.inr (.inr hmarked)))

/-- Called again after it was cut short, a cancellation returns its engine exactly where it can be taken up; and it does so
after any number of such cuts. -/
theorem fence_taken_up (codec : Codec Request Json Engine) (h : ((codec.fence expectedEngine).run v).1 = .ok engine) :
    (∀ v', (codec.fence expectedEngine).Reaches v v' none →
      (((codec.fence expectedEngine).run v').1 = .ok engine ↔ Resumable codec v v')) ∧
    ∀ v', Retried codec expectedEngine v v' → ((codec.fence expectedEngine).run v').1 = .ok engine := by
  refine ⟨fun v' hcut => Resumable.iff h hcut, fun v' hretried => ?_⟩
  induction hretried with
  | start => exact h
  | cut before cut resumable ih => exact (Resumable.iff ih cut).mpr resumable

end Retry

/-- Cut after its marker, a cancellation of an unregistered identity is taken up. -/
theorem fence_taken_up_after_marker : ∃ v' : Volume ℕ Unit, v'.job.cancelled = true ∧
    v'.submission.receipts .cancelled = none ∧ ((unaryCodec.fence (some ())).run v').1 = .ok () := by
  have hcut : ∃ v' : Volume ℕ Unit, (unaryCodec.fence (some ())).Reaches {} v' none ∧ v'.job.cancelled = true ∧
      v'.submission.receipts .cancelled = none ∧ v'.job.status.get.isSome :=
    ⟨_, .act (.act (.act (.act (.act (.act (.act (.act (.act (.act (.act (.cut _ _))))))))))), rfl, rfl, rfl⟩
  obtain ⟨v', hreaches, hmarked, hreceipt, hstatus⟩ := hcut
  refine ⟨v', hmarked, hreceipt, ?_⟩
  exact (fence_taken_up (v := {}) unaryCodec rfl).2 v'
    (.cut .start hreaches (.inr (.inr (.inr ⟨hstatus, by rw [cancelledIn, hmarked, Bool.true_or]⟩))))

/-- Cut after the file that says nothing was started, it is not. -/
theorem fence_refused_after_first_file : ∃ v' : Volume ℕ Unit, (unaryCodec.fence (some ())).Reaches {} v' none ∧
    ((unaryCodec.fence (some ())).run {}).1 = .ok () ∧ v'.job.notStarted = true ∧ v'.job.temporaries = 0 ∧
      ((unaryCodec.fence (some ())).run v').1 = .error (.submission
        { code := "submission_metadata_unavailable"
          message := "Execution artifacts exist without a readable registration"
          statusCode := 503 }) :=
  ⟨_, .act (.act (.act (.act (.act (.act (.act (.cut _ _))))))), rfl, rfl, rfl, rfl⟩

end XFoilFoam.Submission
