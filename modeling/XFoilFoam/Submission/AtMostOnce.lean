import XFoilFoam.Submission.Registration
import XFoilFoam.Foundations.Runs

/-! One dispatch for an execution identity, none behind a fence, and one request, over calls that may crash between any two
writes. -/
namespace XFoilFoam.Submission
set_option autoImplicit false

variable {Request Json Engine : Type} {codec : Codec Request Json Engine} {v v' : Volume Request Engine}
  {request : Request}

/-! ## The invariant -/

/-- The code's own sense of one request: the same JSON, and the same hash of it. -/
def SameRequest (codec : Codec Request Json Engine) (r q : Request) : Prop :=
  codec.modelDump r = codec.modelDump q ∧ codec.signature r = codec.signature q

def Follows (codec : Codec Request Json Engine) : Event Request Engine → Event Request Engine → Prop
  | .enqueued _, .enqueued _ => False
  | .fenced _, .enqueued _ => False
  | .enqueued q, .registered r _ => SameRequest codec r q
  | _, _ => True

/-- Receipts outlive the job directory; the request on file is the one that was sent. -/
structure Kept (codec : Codec Request Json Engine) (v : Volume Request Engine) : Prop where
  dispatched : ∀ q, .enqueued q ∈ v.log →
    v.submission.receipts .dispatching = some (.requestSha256 (codec.signature q)) ∧
      (v.job.request = none ∨ v.job.request = some (codec.indented q))
  fenced : ∀ e, .fenced e ∈ v.log → v.submission.receipts .cancelled ≠ none
  ordered : v.log.Pairwise (Follows codec)

def Unsent (log : List (Event Request Engine)) : Prop := (∀ q, .enqueued q ∉ log) ∧ ∀ e, .fenced e ∉ log

theorem kept_of_unsent (h : Unsent v.log) (hordered : v.log.Pairwise (Follows codec)) : Kept codec v :=
  ⟨fun q hq => absurd hq (h.1 q), fun e he => absurd he (h.2 e), hordered⟩

theorem Kept.unsent (h : Kept codec v) (hnone : ∀ kind, v.submission.receipts kind = none) : Unsent v.log := by
  refine ⟨fun q hq => ?_, fun e he => h.fenced e he (hnone .cancelled)⟩
  have hreceipt := (h.dispatched q hq).1
  rw [hnone] at hreceipt
  cases hreceipt

def core (v : Volume Request Engine) : (ReceiptKind → Option (Details Engine)) × List (Event Request Engine) × Option String :=
  (v.submission.receipts, v.log, v.job.request)

theorem Kept.of_core (hcore : core v' = core v) (h : Kept codec v) : Kept codec v' := by
  simp only [core, Prod.mk.injEq] at hcore
  obtain ⟨hreceipts, hlog, hrequest⟩ := hcore
  refine ⟨?_, ?_, ?_⟩
  · rw [hreceipts, hlog, hrequest]
    exact h.dispatched
  · rw [hreceipts, hlog]
    exact h.fenced
  · rw [hlog]
    exact h.ordered

theorem Kept.disturb {j : JobDir Engine} (h : Kept codec v) (hj : Disturbs v.job j) : Kept codec { v with job := j } := by
  refine ⟨fun q hq => ⟨(h.dispatched q hq).1, ?_⟩, h.fenced, h.ordered⟩
  obtain hsame | hgone := hj
  · rw [show ({ v with job := j } : Volume Request Engine).job.request = j.request from rfl, hsame]
    exact (h.dispatched q hq).2
  · exact .inl hgone

/-! ## Operations that keep the core -/

theorem spares_writeJob {f : JobDir Engine → JobDir Engine} (h : ∀ j, (f j).request = j.request) :
    (writeJob f : Act Request Engine Unit).Spares core := by
  refine Task.Spares.bind (Task.spares_modify fun _ => rfl) fun _ => Task.spares_modify fun v => ?_
  simp only [core, Volume.mapJob, h]

theorem spares_writeStatus (status : JobStatus Engine) : (writeStatus status : Act Request Engine Unit).Spares core :=
  (Task.spares_read core _).bind fun _ => spares_writeJob fun _ => rfl

theorem spares_markCancelled : (markCancelled : Act Request Engine Unit).Spares core :=
  Task.spares_modify fun _ => rfl

theorem spares_lock : (lock : Act Request Engine Unit).Spares core := Task.spares_modify fun _ => rfl

theorem Kept.through {α β : Type} {t : Act Request Engine α} {k : α → Act Request Engine β}
    {Q : Except Failure β → Volume Request Engine → Prop} (h : Kept codec v) (ht : t.Spares core)
    (hok : ∀ a v', Kept codec v' → core v' = core v → (k a).Always (Kept codec) Q v')
    (herror : ∀ e v', Q (.error e) v') : (t.bind k).Always (Kept codec) Q v :=
  (ht.always (fun _ _ => Kept.of_core) h).bind hok fun e v' _ _ => herror e v'

theorem Kept.refused {α : Type} {Q : Except Failure α → Volume Request Engine → Prop} (h : Kept codec v)
    (herror : ∀ e, Q (.error e) v) (code message : String) (statusCode : ℕ) :
    (refuse code message statusCode : Act Request Engine α).Always (Kept codec) Q v := ⟨h, herror _⟩

/-! ## Receipts -/

section Receipts
variable [DecidableEq Engine]

omit [DecidableEq Engine] in
theorem Kept.addReceipt {kind : ReceiptKind} (h : Kept codec v) (hnone : v.submission.receipts kind = none)
    (details : Details Engine)
    (hreceipts : v'.submission.receipts = Function.update v.submission.receipts kind (some details))
    (hlog : v'.log = v.log) (hrequest : v'.job.request = v.job.request) : Kept codec v' := by
  refine ⟨fun q hq => ?_, fun e he => ?_, by rw [hlog]; exact h.ordered⟩
  · rw [hlog] at hq
    obtain ⟨hdispatching, hfile⟩ := h.dispatched q hq
    rw [hreceipts, hrequest, Function.update_of_ne]
    · exact ⟨hdispatching, hfile⟩
    · rintro rfl
      rw [hnone] at hdispatching
      cases hdispatching
  · rw [hlog] at he
    rw [hreceipts]
    by_cases hkind : ReceiptKind.cancelled = kind
    · rw [hkind, Function.update_self]
      exact Option.some_ne_none _
    · rw [Function.update_of_ne hkind]
      exact h.fenced e he

theorem Kept.receipt (h : Kept codec v) (kind : ReceiptKind) (details : Details Engine) :
    (receipt kind details : Act Request Engine Unit).Always (Kept codec)
      (fun r v' => v'.log = v.log ∧ v'.job.request = v.job.request ∧
        (r = .ok () → v'.submission.receipts kind = some details)) v := by
  refine Task.Always.read h ?_
  cases hprevious : v.submission.receipts kind with
  | some previous =>
    dsimp only
    split
    · next heq =>
      subst heq
      exact ⟨h, rfl, rfl, fun _ => hprevious⟩
    · exact h.refused (fun _ => ⟨rfl, rfl, fun hr => by cases hr⟩) _ _ _
  | none =>
    have hwritten : Kept codec (v.mapSubmission fun d =>
        { d with made := true, receipts := Function.update d.receipts kind (some details) }) :=
      h.addReceipt hprevious details rfl rfl rfl
    exact ⟨h, Kept.of_core (v := v) rfl h, Kept.of_core rfl hwritten, rfl, rfl, fun _ => Function.update_self _ _ _⟩

end Receipts

/-! ## Registrations -/

def ReadsBack (codec : Codec Request Json Engine) : Prop :=
  ∀ r p, codec.validateJson (codec.indented r) = some p → codec.modelDump p = codec.modelDump r

/-- A status is only returned for the request that was sent, if one was. -/
def Registers (codec : Codec Request Json Engine) (request : Request) (r : Except Failure (JobStatus Engine))
    (v : Volume Request Engine) : Prop :=
  ∀ status, r = .ok status → ∀ q, .enqueued q ∈ v.log → SameRequest codec request q

theorem registers_error (e : Failure) (v : Volume Request Engine) : Registers codec request (.error e) v :=
  fun _ h => by cases h

variable [DecidableEq Engine]

theorem replay_always [DecidableEq Json] (hread : ReadsBack codec) (h : Kept codec v) :
    (codec.replay request).Always (Kept codec) (Registers codec request) v := by
  refine Task.Always.read h ?_
  cases hprevious : v.job.request.bind codec.validateJson with
  | none => exact h.refused (fun e => registers_error e _) _ _ _
  | some previous =>
    dsimp only
    obtain ⟨text, htext, hvalid⟩ := Option.bind_eq_some_iff.mp hprevious
    split
    · exact h.refused (fun e => registers_error e _) _ _ _
    · next hdump =>
      rw [not_not] at hdump
      refine Task.Always.read h ?_
      cases hstatus : v.job.status.get with
      | none => exact h.refused (fun e => registers_error e _) _ _ _
      | some status =>
        dsimp only
        refine Task.Always.read h ?_
        split
        · refine (h.receipt .dispatching _).bind (fun _ v' h' hreceipt => ?_) fun e v' _ _ => registers_error e v'
          obtain ⟨-, hrequest, hwritten⟩ := hreceipt
          refine ⟨h', fun _ _ q hq => ?_⟩
          obtain ⟨hdigest, hfile⟩ := h'.dispatched q hq
          rw [hwritten rfl] at hdigest
          rw [hrequest, htext] at hfile
          obtain hgone | hsame := hfile
          · cases hgone
          · rw [Option.some.inj hsame] at hvalid
            exact ⟨hdump.symm.trans (hread q previous hvalid), Details.requestSha256.inj (Option.some.inj hdigest)⟩
        · exact h.refused (fun e => registers_error e _) _ _ _

/-! ## The first registration -/

/-- Files of the job directory besides what the log and the receipts are. -/
def sent (v : Volume Request Engine) : (ReceiptKind → Option (Details Engine)) × List (Event Request Engine) :=
  (v.submission.receipts, v.log)

omit [DecidableEq Engine] in
theorem create_always (codec : Codec Request Json Engine) (request : Request) (now : ℕ) (v : Volume Request Engine) :
    (codec.create request now).Always (fun v' => sent v' = sent v)
      (fun r v' => sent v' = sent v ∧ (r = .ok () → v'.job.request = some (codec.indented request))) v := by
  refine ⟨rfl, rfl, rfl, rfl, rfl, rfl, ?_⟩
  dsimp only
  split
  · exact ⟨rfl, rfl, fun h => by cases h⟩
  · exact ⟨rfl, rfl, rfl, rfl, rfl, fun _ => rfl⟩

omit [DecidableEq Engine] in
theorem enqueue_always (broker : Broker Engine) (h : Kept codec v) (hunsent : Unsent v.log)
    (hreceipt : v.submission.receipts .dispatching = some (.requestSha256 (codec.signature request)))
    (hrequest : v.job.request = some (codec.indented request)) :
    (Codec.enqueue request broker).Always (Kept codec)
      (fun _ v' => v'.log = v.log ++ [.enqueued request]) v := by
  refine ⟨h, ⟨fun q hq => ?_, fun e he => ?_, ?_⟩, rfl⟩
  · obtain hold | hnew := List.mem_append.mp hq
    · exact absurd hold (hunsent.1 q)
    · rw [List.mem_singleton] at hnew
      cases hnew
      refine ⟨hreceipt, ?_⟩
      obtain hsame | hgone := broker.disturbs v.job
      · exact .inr (hsame.trans hrequest)
      · exact .inl hgone
  · obtain hold | hnew := List.mem_append.mp he
    · exact absurd hold (hunsent.2 e)
    · rw [List.mem_singleton] at hnew
      cases hnew
  · refine List.pairwise_append.mpr ⟨h.ordered, List.pairwise_singleton _ _, fun a ha b hb => ?_⟩
    rw [List.mem_singleton] at hb
    subst hb
    cases a with
    | enqueued q => exact absurd ha (hunsent.1 q)
    | registered r status => trivial
    | fenced e => exact absurd ha (hunsent.2 e)

omit [DecidableEq Engine] in
theorem registers_of_log {log : List (Event Request Engine)} (hunsent : Unsent log) (hlog : v.log = log ++ [.enqueued request])
    (r : Except Failure (JobStatus Engine)) : Registers codec request r v := by
  intro status _ q hq
  rw [hlog] at hq
  obtain hold | hnew := List.mem_append.mp hq
  · exact absurd hold (hunsent.1 q)
  · rw [List.mem_singleton] at hnew
    cases hnew
    exact ⟨rfl, rfl⟩

theorem dispatch_always [DecidableEq Json] (broker : Broker Engine) (now : ℕ) (h : Kept codec v)
    (hnone : ∀ kind, v.submission.receipts kind = none) :
    (codec.dispatch request broker now).Always (Kept codec) (Registers codec request) v := by
  have hunsent := h.unsent hnone
  have hkept : ∀ v', sent v' = sent v → Kept codec v' := by
    intro v' hsent
    simp only [sent, Prod.mk.injEq] at hsent
    refine kept_of_unsent ?_ ?_ <;> rw [hsent.2]
    · exact hunsent
    · exact h.ordered
  refine ((create_always codec request now v).weaken hkept fun _ _ hQ => hQ).bind (fun _ v₁ h₁ hcreated => ?_)
    fun e v' _ _ => registers_error e v'
  obtain ⟨hsent₁, hrequest₁⟩ := hcreated
  simp only [sent, Prod.mk.injEq] at hsent₁
  refine Task.Always.read h₁ ?_
  cases hstatus : v₁.job.status.get with
  | none => exact h₁.refused (fun e => registers_error e _) _ _ _
  | some status =>
    refine h₁.through (spares_writeStatus _) (fun _ v₂ h₂ hcore₂ => ?_) fun e v' => registers_error e v'
    simp only [core, Prod.mk.injEq] at hcore₂
    refine (h₂.receipt .dispatching _).bind (fun _ v₃ h₃ hreceipt => ?_) fun e v' _ _ => registers_error e v'
    obtain ⟨hlog₃, hrequest₃, hwritten⟩ := hreceipt
    have hunsent₃ : Unsent v₃.log := by
      rw [hlog₃, hcore₂.2.1, hsent₁.2]
      exact hunsent
    have hfile₃ : v₃.job.request = some (codec.indented request) := by
      rw [hrequest₃, hcore₂.2.2, hrequest₁ rfl]
    refine (enqueue_always broker h₃ hunsent₃ (hwritten rfl) hfile₃).bind (fun failed v₄ h₄ hlog₄ => ?_)
      fun e v' _ _ => registers_error e v'
    cases failed with
    | some kind =>
      refine (h₄.receipt .uncertain _).bind (fun _ v₅ h₅ _ => ?_) fun e v' _ _ => registers_error e v'
      exact h₅.refused (fun e => registers_error e _) _ _ _
    | none =>
      refine (h₄.receipt .accepted _).bind (fun _ v₅ h₅ hreceipt => ?_) fun e v' _ _ => registers_error e v'
      refine Task.Always.read h₅ ?_
      cases hstatus₅ : v₅.job.status.get with
      | none => exact h₅.refused (fun e => registers_error e _) _ _ _
      | some status => exact ⟨h₅, registers_of_log hunsent₃ (hreceipt.1.trans hlog₄) _⟩

omit [DecidableEq Engine] in
theorem isCancelled_bind {α : Type} {k : Bool → Act Request Engine α} {Q : Except Failure α → Volume Request Engine → Prop}
    (h : Kept codec v) (hk : ∀ b, (b = false → v.submission.receipts .cancelled = none) → (k b).Always (Kept codec) Q v) :
    (isCancelled.bind k).Always (Kept codec) Q v := by
  refine ⟨h, ?_⟩
  dsimp only
  cases hmarked : v.job.cancelled with
  | true => exact hk true fun hfalse => by cases hfalse
  | false =>
    refine ⟨h, hk _ fun hnone => ?_⟩
    rwa [Option.isSome_eq_false_iff, Option.isNone_iff_eq_none] at hnone

theorem register_always [DecidableEq Json] (hread : ReadsBack codec) (request : Request) (broker : Broker Engine)
    (preflight : Option Failure) (now : ℕ) (h : Kept codec v) :
    (codec.register request broker preflight now).Always (Kept codec) (Registers codec request) v := by
  refine h.through spares_lock (fun _ v₁ h₁ _ => ?_) registers_error
  refine isCancelled_bind h₁ fun cancelled hcancelled => ?_
  split
  · exact h₁.refused (fun e => registers_error e _) _ _ _
  · refine Task.Always.read h₁ ?_
    split
    · exact replay_always hread h₁
    · refine Task.Always.read h₁ ?_
      split
      · exact h₁.refused (fun e => registers_error e _) _ _ _
      · next hregistered =>
        refine Task.Always.read h₁ ?_
        split
        · exact h₁.refused (fun e => registers_error e _) _ _ _
        · cases preflight with
          | some failure => exact ⟨h₁, registers_error failure v₁⟩
          | none =>
            refine dispatch_always broker now h₁ fun kind => ?_
            simp only [Bool.or_eq_true, not_or, Bool.not_eq_true, Option.isSome_eq_false_iff,
              Option.isNone_iff_eq_none] at hregistered
            obtain ⟨⟨⟨⟨-, hdispatching⟩, huncertain⟩, haccepted⟩, hcancel⟩ := hregistered
            cases kind <;> assumption

/-! ## Cancellations -/

def Fences (r : Except Failure Engine) (v : Volume Request Engine) : Prop :=
  ∀ engine, r = .ok engine → v.submission.receipts .cancelled ≠ none

omit [DecidableEq Engine] in
theorem fences_error (e : Failure) (v : Volume Request Engine) : Fences (.error e) v := fun _ h => by cases h

theorem cancel_always (engine : Engine) (h : Kept codec v) :
    (Codec.cancel engine : Act Request Engine Engine).Always (Kept codec) Fences v := by
  refine h.through spares_markCancelled (fun _ v₁ h₁ _ => ?_) fences_error
  refine (h₁.receipt .cancelled _).bind (fun _ v₂ h₂ hreceipt => ⟨h₂, fun _ _ hnone => ?_⟩) fun e v' _ _ => fences_error e v'
  rw [hreceipt.2.2 rfl] at hnone
  cases hnone

theorem cancelUnregistered_always (expectedEngine : Option Engine) (h : Kept codec v) :
    (Codec.cancelUnregistered expectedEngine : Act Request Engine Engine).Always (Kept codec) Fences v := by
  cases expectedEngine with
  | none => exact h.refused (fun e => fences_error e _) _ _ _
  | some engine =>
    refine Task.Always.read h ?_
    split
    · exact h.refused (fun e => fences_error e _) _ _ _
    · refine Task.Always.read h ?_
      split
      · exact h.refused (fun e => fences_error e _) _ _ _
      · refine h.through (spares_writeJob fun _ => rfl) (fun _ v₁ h₁ _ => ?_) fences_error
        refine h₁.through (spares_writeStatus _) (fun _ v₂ h₂ _ => ?_) fences_error
        exact cancel_always engine h₂

theorem fence_always (expectedEngine : Option Engine) (h : Kept codec v) :
    (codec.fence expectedEngine).Always (Kept codec) Fences v := by
  refine h.through spares_lock (fun _ v₁ h₁ _ => ?_) fences_error
  refine Task.Always.read h₁ (Task.Always.read h₁ ?_)
  dsimp only
  split
  · exact h₁.refused (fun e => fences_error e _) _ _ _
  · split
    · exact cancelUnregistered_always expectedEngine h₁
    · refine isCancelled_bind h₁ fun cancelled _ => ?_
      split
      · exact h₁.refused (fun e => fences_error e _) _ _ _
      · split
        · exact h₁.refused (fun e => fences_error e _) _ _ _
        · exact cancel_always _ h₁

/-! ## Runs -/

/-- Calls that hold the lock one after another, each perhaps cut short, and what others do to the job directory in between. -/
inductive Step [DecidableEq Json] (codec : Codec Request Json Engine) (v : Volume Request Engine) :
    Volume Request Engine → Prop where
  | registers {request broker preflight now v' status}
    (runs : (codec.register request broker preflight now).Reaches v v' (some (.ok status))) :
    Step codec v (v'.record (.registered request status))
  | fences {expectedEngine v' engine} (runs : (codec.fence expectedEngine).Reaches v v' (some (.ok engine))) :
    Step codec v (v'.record (.fenced engine))
  | failsToRegister {request broker preflight now v' o} (runs : (codec.register request broker preflight now).Reaches v v' o)
    (unanswered : ∀ status, o ≠ some (.ok status)) : Step codec v v'
  | failsToFence {expectedEngine v' o} (runs : (codec.fence expectedEngine).Reaches v v' o)
    (unanswered : ∀ engine, o ≠ some (.ok engine)) : Step codec v v'
  | disturbed {j : JobDir Engine} (disturbs : Disturbs v.job j) : Step codec v { v with job := j }

def Fresh (v : Volume Request Engine) : Prop := v.log = [] ∧ v.job.request = none ∧ ∀ kind, v.submission.receipts kind = none

omit [DecidableEq Engine] in
theorem Fresh.kept (h : Fresh v) : Kept codec v := by
  refine kept_of_unsent ?_ ?_ <;> rw [h.1]
  · exact ⟨fun _ hq => absurd hq List.not_mem_nil, fun _ he => absurd he List.not_mem_nil⟩
  · exact List.Pairwise.nil

omit [DecidableEq Engine] in
theorem Kept.registered {status : JobStatus Engine} (h : Kept codec v) (hr : Registers codec request (.ok status) v) :
    Kept codec (v.record (.registered request status)) := by
  have hmem {event : Event Request Engine} (hevent : event ∈ v.log ++ [.registered request status]) :
      event ∈ v.log ∨ event = .registered request status := by
    rw [List.mem_append, List.mem_singleton] at hevent
    exact hevent
  refine ⟨fun q hq => ?_, fun e he => ?_, ?_⟩
  · obtain hold | hnew := hmem hq
    · exact h.dispatched q hold
    · cases hnew
  · obtain hold | hnew := hmem he
    · exact h.fenced e hold
    · cases hnew
  · refine List.pairwise_append.mpr ⟨h.ordered, List.pairwise_singleton _ _, fun a ha b hb => ?_⟩
    rw [List.mem_singleton] at hb
    subst hb
    cases a with
    | enqueued q => exact hr status rfl q ha
    | registered r status => trivial
    | fenced e => trivial

omit [DecidableEq Engine] in
theorem Kept.fencedBy {engine : Engine} (h : Kept codec v) (hr : Fences (.ok engine) v) :
    Kept codec (v.record (.fenced engine)) := by
  refine ⟨fun q hq => ?_, fun e _ => hr engine rfl, ?_⟩
  · rw [Volume.record, List.mem_append, List.mem_singleton] at hq
    obtain hold | hnew := hq
    · exact h.dispatched q hold
    · cases hnew
  · refine List.pairwise_append.mpr ⟨h.ordered, List.pairwise_singleton _ _, fun a _ b hb => ?_⟩
    rw [List.mem_singleton] at hb
    subst hb
    cases a <;> trivial

theorem Kept.step [DecidableEq Json] (hread : ReadsBack codec) (h : Kept codec v) (hstep : Step codec v v') :
    Kept codec v' := by
  cases hstep with
  | registers runs =>
    obtain ⟨hkept, hanswer⟩ := (register_always hread _ _ _ _ h).reaches runs
    exact hkept.registered (hanswer _ rfl)
  | fences runs =>
    obtain ⟨hkept, hanswer⟩ := (fence_always _ h).reaches runs
    exact hkept.fencedBy (hanswer _ rfl)
  | failsToRegister runs _ => exact ((register_always hread _ _ _ _ h).reaches runs).1
  | failsToFence runs _ => exact ((fence_always _ h).reaches runs).1
  | disturbed disturbs => exact h.disturb disturbs

def Event.isEnqueue : Event Request Engine → Bool
  | .enqueued _ => true
  | _ => false

omit [DecidableEq Engine] in
theorem ordered_enqueue_le_one {log : List (Event Request Engine)} (h : log.Pairwise (Follows codec)) :
    (log.filter Event.isEnqueue).length ≤ 1 := by
  have hsent := h.sublist (List.filter_sublist (p := Event.isEnqueue))
  have hkind : ∀ event ∈ log.filter Event.isEnqueue, ∃ q, event = .enqueued q := by
    intro event hevent
    cases event with
    | enqueued q => exact ⟨q, rfl⟩
    | registered r status => cases (List.mem_filter.mp hevent).2
    | fenced e => cases (List.mem_filter.mp hevent).2
  cases hlog : log.filter Event.isEnqueue with
  | nil => exact Nat.zero_le 1
  | cons a rest =>
    cases rest with
    | nil => exact Nat.le_refl 1
    | cons b rest =>
      rw [hlog] at hsent hkind
      obtain ⟨q, rfl⟩ := hkind a List.mem_cons_self
      obtain ⟨q', rfl⟩ := hkind b (List.mem_cons_of_mem _ List.mem_cons_self)
      exact absurd ((List.pairwise_cons.mp hsent).1 _ List.mem_cons_self) id

/-- Over every run of registrations and cancellations the message leaves once at most and never behind a fence, and a status is
returned only for the request that was sent. -/
theorem enqueue_at_most_once [DecidableEq Json] (codec : Codec Request Json Engine) (hread : ReadsBack codec)
    {v : Volume Request Engine} (h : Reachable Fresh (Step codec) v) :
    (v.log.filter Event.isEnqueue).length ≤ 1 ∧
      (∀ before after e q, v.log = before ++ .fenced e :: after → .enqueued q ∉ after) ∧
      ∀ before after r status q, v.log = before ++ .registered r status :: after → .enqueued q ∈ before →
        codec.modelDump r = codec.modelDump q ∧ codec.signature r = codec.signature q := by
  have hkept : Kept codec v := h.invariant (fun _ => Fresh.kept) fun _ _ => Kept.step hread
  refine ⟨ordered_enqueue_le_one hkept.ordered, fun before after e q hlog hq => ?_,
    fun before after r status q hlog hq => ?_⟩
  · have hordered := hkept.ordered
    rw [hlog] at hordered
    exact (List.pairwise_cons.mp (List.pairwise_append.mp hordered).2.1).1 _ hq
  · have hordered := hkept.ordered
    rw [hlog] at hordered
    exact (List.pairwise_append.mp hordered).2.2 _ hq _ List.mem_cons_self

def unaryCodec : Codec ℕ ℕ Unit where
  jobId := "job"
  modelDump r := r
  modelDumpJson r := String.ofList (List.replicate r '1')
  indented r := String.ofList (List.replicate r '1')
  validateJson text := some text.length
  sha256 text := text
  expectedEngine _ := none
  expectedExecutionPool _ := none
  caseCount r := r
  defaultEngine := ()
  queueName _ := some "queue"

theorem unaryCodec_readsBack : ReadsBack unaryCodec := by
  intro r p h
  cases h
  simp [unaryCodec]

def readyBroker : Broker Unit := ⟨id, fun _ => .inl rfl, none⟩

theorem enqueue_once_after_registration :
    ((((unaryCodec.register 3 readyBroker none 0).run {}).2.log.filter Event.isEnqueue).length ≤ 1) := by
  have hfresh : Fresh ({} : Volume ℕ Unit) := ⟨rfl, rfl, fun _ => rfl⟩
  have hrun := (unaryCodec.register 3 readyBroker none 0).reaches_run {}
  have hstep := @Step.registers _ _ _ _ _ unaryCodec ({} : Volume ℕ Unit) _ _ _ _ _
    { state := .pending, totalCases := 3, taskId := some "job", queuedAt := some 0, requestedEngine := some ()
      requestedExecutionPool := some "queue" } hrun
  have hcount := (enqueue_at_most_once unaryCodec unaryCodec_readsBack ((Reachable.start hfresh).next hstep)).1
  exact hcount

end XFoilFoam.Submission
