import Mathlib.Data.List.Dedup
import Mathlib.Data.List.Nodup
import Mathlib.Data.List.TakeWhile
import TaskFlow.WebhookFinal
import TaskFlow.WebhookHealth

/-! # An endpoint is disabled for failures in a row

The counter of an endpoint stands for as many different deliveries to it, each
of which has died and been counted since one last succeeded.  Two things break
that: a success that finds the counter above zero and leaves it there, and a
success between the mark of a death and its count.  In a run without them an
endpoint that is disabled has had as many deliveries die in a row.

An attempt is claimed once, whoever claims it, so a delivery's last attempt
fails and is counted at most once.
-/
namespace TaskFlow
namespace WebhookHealth
open ReadCommitted ReadCommitted.Script ReadCommitted.Procedure
open WebhookDelivery (BATCH MAX_ATTEMPTS ClaimedRow Delivery DeliveryId DeliveryOutcome
  EnqueueEvent Status)

/-! ### The log -/

section
variable {log notes : List Note} {webhookId : WebhookId} {n : Nat} {failed : List DeliveryId}

theorem sinceSuccess_append (h : ∀ note ∈ notes, note.isSuccess webhookId = false) :
    sinceSuccess (notes ++ log) webhookId = notes ++ sinceSuccess log webhookId :=
  List.takeWhile_append_of_pos fun note hnote => by simp [h note hnote]

/-- A note that is not one of the latest stands only where none of these is a
success. -/
theorem sinceSuccess_of_notMem {note : Note}
    (h : note ∈ sinceSuccess (notes ++ log) webhookId) (hnot : note ∉ notes) :
    sinceSuccess (notes ++ log) webhookId = notes ++ sinceSuccess log webhookId := by
  rw [sinceSuccess, List.takeWhile_append] at h ⊢
  split at h
  · rename_i hall
    rw [if_pos hall]
    rfl
  · exact absurd ((List.takeWhile_sublist _).mem h) hnot

/-- Different deliveries to the endpoint that have died, and been counted, since
one last succeeded. -/
structure Counted (log : List Note) (webhookId : WebhookId) (failed : List DeliveryId) : Prop where
  nodup : failed.Nodup
  died : ∀ id ∈ failed, .finished webhookId id MAX_ATTEMPTS .dead ∈ sinceSuccess log webhookId
  counted : ∀ id ∈ failed, .counted webhookId id ∈ log

/-- The endpoint's counter stands for as many failures in a row. -/
def Counts (log : List Note) (webhookId : WebhookId) (n : Nat) : Prop :=
  ∃ failed, Counted log webhookId failed ∧ failed.length = n

theorem counts_zero : Counts log webhookId 0 :=
  ⟨[], ⟨List.nodup_nil, by simp, by simp⟩, rfl⟩

theorem Counted.append (h : Counted log webhookId failed)
    (hsince : sinceSuccess (notes ++ log) webhookId = notes ++ sinceSuccess log webhookId) :
    Counted (notes ++ log) webhookId failed where
  nodup := h.nodup
  died id hid := hsince ▸ List.mem_append_right _ (h.died id hid)
  counted id hid := List.mem_append_right _ (h.counted id hid)

theorem Counts.append (h : Counts log webhookId n)
    (hnotes : ∀ note ∈ notes, note.isSuccess webhookId = false) :
    Counts (notes ++ log) webhookId n := by
  obtain ⟨failed, hfailed, hlength⟩ := h
  exact ⟨failed, hfailed.append (sinceSuccess_append hnotes), hlength⟩

theorem length_le_deadSince (hnodup : failed.Nodup)
    (hdied : ∀ id ∈ failed,
      .finished webhookId id MAX_ATTEMPTS .dead ∈ sinceSuccess log webhookId) :
    failed.length ≤ (deadSince log webhookId).dedup.length := by
  have hsub : failed ⊆ (deadSince log webhookId).dedup := fun id hid =>
    List.mem_dedup.mpr (List.mem_filterMap.mpr ⟨_, hdied id hid, by simp [Note.death?]⟩)
  exact (hnodup.subperm hsub).length_le

end

/-! ### The discipline -/

/-- The delivery has had that many attempts, or had them before it was deleted. -/
def Row.AtLeast (attempt : Nat) : Row → Prop
  | .delivery (some row) => attempt ≤ row.attempts
  | .deleted => True
  | _ => False

variable {S : Type}

/-- What holds of the tables and of what has been noted. -/
structure Inv (rows : Rows) (log : List (S × Note)) : Prop where
  claimed : ∀ s id attempt, (s, .claimed id attempt) ∈ log →
    (rows (.delivery id)).AtLeast attempt
  unique : ∀ s s' id attempt, (s, .claimed id attempt) ∈ log → (s', .claimed id attempt) ∈ log →
    s = s'
  finished : ∀ s webhookId id attempt status, (s, .finished webhookId id attempt status) ∈ log →
    (s, .claimed id attempt) ∈ log
  counted : ∀ s webhookId id, (s, .counted webhookId id) ∈ log →
    (s, .finished webhookId id MAX_ATTEMPTS .dead) ∈ log
  counts : ∀ webhookId, ∀ webhook ∈ (rows (.webhook webhookId)).webhook?,
    Counts (log.map Prod.snd) webhookId webhook.failureCount
  disabled : ∀ newer s webhookId name n older,
    log = newer ++ (s, .webhookAutoDisabled webhookId name n) :: older →
    DISABLE_AFTER_FAILURES ≤ (deadSince (older.map Prod.snd) webhookId).dedup.length

/-- A session relies on the rows it has locked, and on others noting what they
do as theirs. -/
def discipline (S : Type) : Discipline S Key Row Label Env Note where
  inv σ := Inv σ.rows σ.log
  guarantee _ _ _ _ _ := True
  rely s own σ σ' := (∀ k, own k → σ'.rows k = σ.rows k) ∧
    ∃ new, σ'.log = new ++ σ.log ∧ ∀ e ∈ new, e.1 ≠ s
  condition := unbrokenStreaks

theorem discipline_lawful : (discipline S).Lawful where
  refl _ _ _ := ⟨fun _ _ => rfl, [], rfl, by simp⟩
  trans := by
    rintro s own σ σ' σ'' ⟨hrows, new, hlog, hnew⟩ ⟨hrows', new', hlog', hnew'⟩
    refine ⟨fun k hk => (hrows' k hk).trans (hrows k hk), new' ++ new, ?_, fun e he => ?_⟩
    · rw [hlog', hlog, List.append_assoc]
    · exact (List.mem_append.mp he).elim (hnew' e) (hnew e)
  rely {s s' _ notes _ _} hss' _ hrows _ _ _ := by
    refine ⟨hrows, notes.map (Prod.mk s'), rfl, fun e he => ?_⟩
    obtain ⟨note, _, rfl⟩ := List.mem_map.mp he
    exact hss'.symm

variable {s : S} {t : Transaction Key Row} {σ σ' : Shared S Key Row Note}
  {count : WebhookId → Nat → Prop} {notes : List Note}

/-- What a transaction may make of a row: a counter is reset, left, or set as
`count` says, and a delivery has no fewer attempts. -/
def Evolves (count : WebhookId → Nat → Prop) : Key → Row → Row → Prop
  | .webhook id, old, new => ∀ webhook ∈ new.webhook?, webhook.failureCount = 0 ∨
      count id webhook.failureCount ∨
      ∃ before ∈ old.webhook?, before.failureCount = webhook.failureCount
  | .delivery _, old, new => ∀ attempt, old.AtLeast attempt → new.AtLeast attempt
  | .notification .., _, _ => True

theorem evolves_refl (k : Key) (row : Row) : Evolves count k row row := by
  cases k with
  | webhook id => exact fun webhook h => Or.inr (Or.inr ⟨webhook, h, rfl⟩)
  | delivery id => exact fun _ h => h
  | notification => trivial

theorem evolves_trans {k : Key} {row row' row'' : Row} (h : Evolves count k row row')
    (h' : Evolves count k row' row'') : Evolves count k row row'' := by
  cases k with
  | webhook id =>
    intro webhook hwebhook
    rcases h' webhook hwebhook with h0 | hcount | ⟨before, hbefore, heq⟩
    · exact Or.inl h0
    · exact Or.inr (Or.inl hcount)
    · rw [← heq]
      exact h before hbefore
  | delivery id => exact fun attempt ha => h' attempt (h attempt ha)
  | notification => trivial

theorem stable_evolved : Stable (discipline S) s (Evolved (Evolves count)) :=
  evolved_stable evolves_refl fun _ _ _ hrely => hrely.1

/-- The notes that are about no delivery. -/
def Note.IsPlain : Note → Prop
  | .webhookCreated .. | .webhookUpdated .. | .webhookDeleted .. | .webhookDeliveryQueued .. => True
  | _ => False

theorem mem_noted {s' : S} {note : Note} {log : List (S × Note)} :
    (s', note) ∈ notes.map (Prod.mk s) ++ log ↔ (s' = s ∧ note ∈ notes) ∨ (s', note) ∈ log := by
  simp only [List.mem_append, List.mem_map, Prod.mk.injEq]
  constructor
  · rintro (⟨_, hnote, rfl, rfl⟩ | h)
    · exact Or.inl ⟨rfl, hnote⟩
    · exact Or.inr h
  · rintro (⟨rfl, hnote⟩ | h)
    · exact Or.inl ⟨note, hnote, rfl, rfl⟩
    · exact Or.inr h

theorem map_snd_noted {log : List (S × Note)} :
    (notes.map (Prod.mk s) ++ log).map Prod.snd = notes ++ log.map Prod.snd := by
  simp [Function.comp_def]

/-- Whatever endpoint is said to be disabled has failed so often in a row. -/
def Disables (notes log : List Note) : Prop :=
  ∀ newer webhookId name n older, notes = newer ++ .webhookAutoDisabled webhookId name n :: older →
    DISABLE_AFTER_FAILURES ≤ (deadSince (older ++ log) webhookId).dedup.length

theorem disables_of_notMem {log : List Note}
    (h : ∀ webhookId name n, .webhookAutoDisabled webhookId name n ∉ notes) :
    Disables notes log := by
  rintro newer webhookId name n older rfl
  exact absurd (by simp) (h webhookId name n)

/-- A commit keeps what holds, where it notes no more than it has done. -/
theorem Inv.commit (hinv : Inv σ.rows σ.log) (ht : Evolved (Evolves count) t σ)
    (hclaimed : ∀ id attempt, .claimed id attempt ∈ notes →
      ¬(σ.rows (.delivery id)).AtLeast attempt ∧ (t.view σ (.delivery id)).AtLeast attempt)
    (hfinished : ∀ webhookId id attempt status, .finished webhookId id attempt status ∈ notes →
      (s, .claimed id attempt) ∈ σ.log)
    (hcounted : ∀ webhookId id, .counted webhookId id ∈ notes →
      (s, .finished webhookId id MAX_ATTEMPTS .dead) ∈ σ.log)
    (hcount : ∀ webhookId n, count webhookId n → Counts (notes ++ σ.log.map Prod.snd) webhookId n)
    (hkeep : ∀ webhookId, ∀ webhook ∈ (t.view σ (.webhook webhookId)).webhook?,
      Counts (σ.log.map Prod.snd) webhookId webhook.failureCount →
      Counts (notes ++ σ.log.map Prod.snd) webhookId webhook.failureCount)
    (hdisabled : Disables notes (σ.log.map Prod.snd)) :
    Inv (σ.commit s t notes).rows (σ.commit s t notes).log := by
  change Inv (t.view σ) (notes.map (Prod.mk s) ++ σ.log)
  refine ⟨?_, ?_, ?_, ?_, ?_, ?_⟩
  · intro s' id attempt h
    rcases (mem_noted).mp h with ⟨_, hnote⟩ | hold
    · exact (hclaimed id attempt hnote).2
    · exact ht.row (.delivery id) attempt (hinv.claimed s' id attempt hold)
  · intro s' s'' id attempt h h'
    rcases (mem_noted).mp h with ⟨hs, hnote⟩ | hold <;>
      rcases (mem_noted).mp h' with ⟨hs', hnote'⟩ | hold'
    · exact hs.trans hs'.symm
    · exact absurd (hinv.claimed s'' id attempt hold') (hclaimed id attempt hnote).1
    · exact absurd (hinv.claimed s' id attempt hold) (hclaimed id attempt hnote').1
    · exact hinv.unique s' s'' id attempt hold hold'
  · intro s' webhookId id attempt status h
    refine (mem_noted).mpr (Or.inr ?_)
    rcases (mem_noted).mp h with ⟨hs, hnote⟩ | hold
    · exact hs ▸ hfinished webhookId id attempt status hnote
    · exact hinv.finished s' webhookId id attempt status hold
  · intro s' webhookId id h
    refine (mem_noted).mpr (Or.inr ?_)
    rcases (mem_noted).mp h with ⟨hs, hnote⟩ | hold
    · exact hs ▸ hcounted webhookId id hnote
    · exact hinv.counted s' webhookId id hold
  · intro webhookId webhook hwebhook
    rw [map_snd_noted]
    rcases ht.row (.webhook webhookId) webhook hwebhook with h0 | hc | ⟨before, hbefore, heq⟩
    · rw [h0]
      exact counts_zero
    · exact hcount webhookId _ hc
    · exact hkeep webhookId webhook hwebhook (heq ▸ hinv.counts webhookId before hbefore)
  · intro newer s' webhookId name n older h
    rcases List.append_eq_append_iff.mp h with ⟨more, rfl, hlog⟩ | ⟨rest, hnotes, hlog⟩
    · exact hinv.disabled more s' webhookId name n older hlog
    · cases rest with
      | nil => exact hinv.disabled [] s' webhookId name n older hlog.symm
      | cons e rest =>
        obtain ⟨rfl, rfl⟩ := List.cons.inj hlog
        obtain ⟨before, after, rfl, rfl, hafter⟩ := List.map_eq_append_iff.mp hnotes
        obtain ⟨note, after, rfl, heq, rfl⟩ := List.map_eq_cons_iff.mp hafter
        obtain ⟨rfl, rfl⟩ := Prod.mk.inj heq
        have holder := hdisabled before webhookId name n after rfl
        rwa [← map_snd_noted (s := s)] at holder

/-- A transaction that claims, marks and counts nothing. -/
abbrev Keeps (t : Transaction Key Row) (σ : Shared S Key Row Note) : Prop :=
  Evolved (Evolves fun _ _ => False) t σ

theorem Note.IsPlain.isSuccess {note : Note} (h : note.IsPlain) (webhookId : WebhookId) :
    note.isSuccess webhookId = false := by
  cases note with
  | finished => exact h.elim
  | _ => rfl

theorem Inv.commit_plain (hinv : Inv σ.rows σ.log) (ht : Keeps t σ)
    (hnotes : ∀ note ∈ notes, note.IsPlain) :
    Inv (σ.commit s t notes).rows (σ.commit s t notes).log := by
  refine hinv.commit ht (fun _ _ h => (hnotes _ h).elim) (fun _ _ _ _ h => (hnotes _ h).elim)
    (fun _ _ h => (hnotes _ h).elim) (fun _ _ h => h.elim) (fun webhookId _ _ h => ?_) ?_
  · exact h.append fun note hnote => (hnotes note hnote).isSuccess webhookId
  · exact disables_of_notMem fun webhookId name n hmem => hnotes _ hmem

theorem triple_plain {α : Type} {body : Procedure (List Note × α)}
    (h : Triple (discipline S) s Keeps body fun r t σ =>
      (∀ note ∈ r.1, note.IsPlain) ∧ Keeps t σ) :
    Triple (discipline S) s (fun t _ => t = .none) (transaction body) fun _ t _ => t = .none := by
  have hbody : Triple (discipline S) s (fun t _ => t = .none) body fun r t σ =>
      (∀ note ∈ r.1, note.IsPlain) ∧ Keeps t σ :=
    h.conseq (fun _ _ ht => ht ▸ evolved_none evolves_refl) fun _ _ _ hq => hq
  refine triple_transaction hbody (fun r => ?_) fun r t σ ⟨hnotes, ht⟩ hinv _ => ?_
  · exact fun t σ σ' hr hrely hinv => ⟨hr.1, stable_evolved t σ σ' hr.2 hrely hinv⟩
  · exact ⟨Inv.commit_plain hinv ht hnotes, trivial, rfl⟩

/-! ### The registry and the queue -/

/-- A statement whose writes evolve the rows it sees. -/
theorem triple_writes {α : Type} {label : Label} {run : Env → Rows → List Key × List (Key × Row)}
    {result : Env → Rows → α}
    (h : ∀ i rows k row, (k, row) ∈ (run i rows).2 → Evolves count k (rows k) row) :
    Triple (discipline S) s (Evolved (Evolves count)) (statement label run result)
      fun _ => Evolved (Evolves count) :=
  triple_statement stable_evolved fun _ _ i _ ht _ _ _ =>
    ht.run evolves_trans fun k row hmem => h i _ k row hmem

theorem triple_loadWebhook {orgId : String} {id : WebhookId} :
    Triple (discipline S) s Keeps (loadWebhook orgId id) fun _ => Keeps :=
  Triple.bind (Q := fun _ => Keeps) (triple_select stable_evolved fun _ _ h _ _ _ _ => h)
    fun _ => triple_ofOption fun _ _ _ _ h => h

theorem mem_of_inOrg {row : Row} {orgId : String} {webhook : Webhook}
    (h : row.inOrg orgId = some webhook) : webhook ∈ row.webhook? :=
  (Option.filter_eq_some_iff.mp h).1

/-- The counter is reset or left. -/
theorem evolves_rewritten {id : WebhookId} {row : Row} {orgId : String} {old new : Webhook}
    (hold : row.inOrg orgId = some old)
    (hnew : new.failureCount = 0 ∨ new.failureCount = old.failureCount) :
    Evolves count (.webhook id) row (.webhook (some new)) := by
  intro webhook hwebhook
  obtain rfl : new = webhook := Option.some.inj hwebhook
  exact hnew.imp_right fun heq => Or.inr ⟨old, mem_of_inOrg hold, heq.symm⟩

theorem evolves_deleted (k : Key) (row : Row) : Evolves count k row .deleted := by
  cases k with
  | webhook => exact fun _ h => absurd h (by simp [Row.webhook?])
  | delivery => exact fun _ _ => trivial
  | notification => trivial

theorem triple_createWebhook {webhookIds : List WebhookId} {orgId userId name url : String}
    {id : WebhookId} {urlAllowed : Bool} :
    Triple (discipline S) s (fun t _ => t = .none)
      (createWebhook webhookIds orgId userId id name url urlAllowed) fun _ t _ => t = .none := by
  refine Triple.bind (Q := fun _ t _ => t = .none) (triple_require fun _ _ h _ => h) fun _ =>
    triple_plain ?_
  refine Triple.bind (Q := fun _ => Keeps) (triple_writes ?_) fun _ =>
    Triple.bind (Q := fun _ => Keeps) (triple_require fun _ _ h _ => h) fun _ =>
      triple_pure fun _ _ h => ⟨by simp [Note.IsPlain], h⟩
  intro i rows k row hmem
  split at hmem
  · obtain ⟨rfl, rfl⟩ := Prod.mk.inj (List.mem_singleton.mp hmem)
    intro webhook hwebhook
    obtain rfl := Option.some.inj hwebhook
    exact Or.inl rfl
  · exact absurd hmem List.not_mem_nil

theorem triple_updateWebhook {webhookIds : List WebhookId} {orgId name url : String}
    {id : WebhookId} {urlAllowed : Bool} :
    Triple (discipline S) s (fun t _ => t = .none)
      (updateWebhook webhookIds orgId id name url urlAllowed) fun _ t _ => t = .none := by
  refine Triple.bind (Q := fun _ t _ => t = .none) (triple_require fun _ _ h _ => h) fun _ =>
    triple_plain ?_
  refine Triple.bind (Q := fun _ => Keeps) triple_loadWebhook fun existing => ?_
  refine Triple.bind (Q := fun _ => Keeps) (triple_writes ?_) fun _ =>
    Triple.bind (Q := fun _ => Keeps) (triple_require fun _ _ h _ => h) fun _ =>
      triple_pure fun _ _ h => ⟨by simp [Note.IsPlain], h⟩
  intro i rows k row hmem
  split at hmem
  · exact absurd hmem List.not_mem_nil
  · obtain ⟨old, hold, heq⟩ := Option.map_eq_some_iff.mp (Option.mem_toList.mp hmem)
    obtain ⟨rfl, rfl⟩ := Prod.mk.inj heq
    exact evolves_rewritten hold (Or.inr rfl)

/-- An UPDATE of one row. -/
theorem triple_updates {label : Label} {k : Key} {f : Env → Row → Option Row}
    (h : ∀ i row row', f i row = some row' → Evolves count k row row') :
    Triple (discipline S) s (Evolved (Evolves count)) (update label k f)
      fun _ => Evolved (Evolves count) :=
  triple_update stable_evolved
    (fun _ _ i _ row ht _ hf _ _ => ht.run evolves_trans fun k' row' hmem => by
      obtain ⟨rfl, rfl⟩ := Prod.mk.inj (List.mem_singleton.mp hmem)
      exact h i _ _ hf)
    fun _ _ _ _ ht _ _ _ => ht

theorem triple_setWebhookEnabled {orgId : String} {id : WebhookId} {enabled : Bool} :
    Triple (discipline S) s (fun t _ => t = .none) (setWebhookEnabled orgId id enabled)
      fun _ t _ => t = .none := by
  refine triple_plain (Triple.bind (Q := fun _ => Keeps) triple_loadWebhook fun existing => ?_)
  refine Triple.bind (Q := fun _ => Keeps) (triple_updates ?_) fun _ =>
    triple_pure fun _ _ h => ⟨by simp [Note.IsPlain], h⟩
  intro i row row' hf
  obtain ⟨old, hold, rfl⟩ := Option.map_eq_some_iff.mp hf
  apply evolves_rewritten hold
  cases enabled with
  | true => exact Or.inl rfl
  | false => exact Or.inr rfl

theorem triple_deleteWebhook {ids : List DeliveryId} {orgId : String} {id : WebhookId} :
    Triple (discipline S) s (fun t _ => t = .none) (deleteWebhook ids orgId id)
      fun _ t _ => t = .none := by
  refine triple_plain (Triple.bind (Q := fun _ => Keeps) triple_loadWebhook fun existing => ?_)
  refine Triple.bind (Q := fun _ => Keeps) (triple_writes ?_) fun _ =>
    triple_pure fun _ _ h => ⟨by simp [Note.IsPlain], h⟩
  intro i rows k row hmem
  split at hmem
  · obtain rfl : row = .deleted := by
      rcases List.mem_cons.mp hmem with heq | hmem
      · exact (Prod.mk.inj heq).2
      · obtain ⟨d, _, hd⟩ := List.mem_filterMap.mp hmem
        obtain ⟨delivery, _, hd⟩ := Option.bind_eq_some_iff.mp hd
        split at hd
        · exact (Prod.mk.inj (Option.some.inj hd)).2.symm
        · cases hd
    exact evolves_deleted k _
  · exact absurd hmem List.not_mem_nil

theorem triple_enqueueWebhookDelivery {ids : List DeliveryId} {authorized : Bool}
    {event : EnqueueEvent} :
    Triple (discipline S) s (fun t _ => t = .none) (enqueueWebhookDelivery ids authorized event)
      fun _ t _ => t = .none := by
  refine Triple.bind (Q := fun _ t _ => t = .none) (triple_require fun _ _ h _ => h) fun _ =>
    triple_plain ?_
  refine Triple.bind (Q := fun _ => Keeps) triple_loadWebhook fun existing => ?_
  refine Triple.bind (Q := fun _ => Keeps) (triple_require fun _ _ h _ => h) fun _ => ?_
  refine Triple.bind (Q := fun _ => Keeps) (triple_writes ?_) fun inserted => Triple.ite
    (fun _ => triple_pure fun _ _ h => ⟨by simp [Note.IsPlain], h⟩)
    fun _ => triple_pure fun _ _ h => ⟨by simp, h⟩
  intro i rows k row hmem
  split at hmem
  · rename_i hfree
    obtain ⟨rfl, rfl⟩ := Prod.mk.inj (List.mem_singleton.mp hmem)
    intro attempt hattempt
    rw [(of_decide_eq_true hfree).2.1] at hattempt
    exact hattempt.elim
  · exact absurd hmem List.not_mem_nil

/-! ### What a worker holds -/

variable {row : ClaimedRow} {batch : List ClaimedRow} {log : List (S × Note)}

def attemptOf (row : ClaimedRow) : DeliveryId × Nat := (row.id, row.attempts)

/-- The attempts a worker has claimed and not marked. -/
structure Batch (s : S) (batch : List ClaimedRow) (log : List (S × Note)) : Prop where
  claimed : ∀ row ∈ batch, (s, .claimed row.id row.attempts) ∈ log
  unfinished : ∀ row ∈ batch, ∀ webhookId status,
    (s, .finished webhookId row.id row.attempts status) ∉ log
  budget : ∀ row ∈ batch, row.attempts ≤ MAX_ATTEMPTS
  nodup : (batch.map attemptOf).Nodup

theorem Batch.append (h : Batch s batch log) {new : List (S × Note)}
    (hnew : ∀ row ∈ batch, ∀ webhookId status,
      (s, .finished webhookId row.id row.attempts status) ∉ new) : Batch s batch (new ++ log) where
  claimed row hrow := List.mem_append_right _ (h.claimed row hrow)
  unfinished row hrow webhookId status hmem := (List.mem_append.mp hmem).elim
    (hnew row hrow webhookId status) (h.unfinished row hrow webhookId status)
  budget := h.budget
  nodup := h.nodup

theorem stable_batch : Stable (discipline S) s fun _ σ => Batch s batch σ.log := by
  rintro t σ σ' h ⟨_, new, hlog, hnew⟩ _
  rw [hlog]
  exact h.append fun row _ webhookId status hmem => hnew _ hmem rfl

/-- The session has claimed the delivery's last attempt, and not counted it. -/
structure Uncounted (s : S) (id : DeliveryId) (log : List (S × Note)) : Prop where
  claimed : (s, .claimed id MAX_ATTEMPTS) ∈ log
  uncounted : ∀ webhookId, (s, .counted webhookId id) ∉ log

theorem stable_uncounted {id : DeliveryId} :
    Stable (discipline S) s fun _ σ => Uncounted s id σ.log := by
  rintro t σ σ' h ⟨_, new, hlog, hnew⟩ _
  rw [hlog]
  exact ⟨List.mem_append_right _ h.claimed, fun webhookId hmem =>
    (List.mem_append.mp hmem).elim (fun hmem => hnew _ hmem rfl) (h.uncounted webhookId)⟩

/-- A counter read as `n` stands for failures of other deliveries, if the death
of this one is in a row with them. -/
def Streak (row : ClaimedRow) (n : Nat) (log : List (S × Note)) : Prop :=
  .finished row.webhookId row.id MAX_ATTEMPTS .dead ∈
      sinceSuccess (log.map Prod.snd) row.webhookId →
    ∃ failed, Counted (log.map Prod.snd) row.webhookId failed ∧ failed.length = n ∧
      row.id ∉ failed

/-- The last attempt of a delivery is claimed by one session. -/
theorem Inv.claimant {rows : Rows} (hinv : Inv rows log) {id : DeliveryId}
    (hclaimed : (s, .claimed id MAX_ATTEMPTS) ∈ log) {webhookId : WebhookId} {status : Status}
    (h : .finished webhookId id MAX_ATTEMPTS status ∈ log.map Prod.snd) :
    (s, .finished webhookId id MAX_ATTEMPTS status) ∈ log := by
  obtain ⟨⟨s', note⟩, hmem, rfl⟩ := List.mem_map.mp h
  rw [hinv.unique s s' id MAX_ATTEMPTS hclaimed (hinv.finished _ _ _ _ _ hmem)]
  exact hmem

theorem stable_streak {n : Nat} : Stable (discipline S) s fun _ σ =>
    Uncounted s row.id σ.log ∧ Streak row n σ.log := by
  rintro t σ σ' ⟨h, hstreak⟩ hrely hinv
  have h' := stable_uncounted t σ σ' h hrely hinv
  obtain ⟨_, new, hlog, hnew⟩ := hrely
  refine ⟨h', fun hmem => ?_⟩
  rw [hlog, List.map_append] at hmem ⊢
  have hnot : .finished row.webhookId row.id MAX_ATTEMPTS .dead ∉ new.map Prod.snd := by
    intro hmem'
    obtain ⟨⟨s', note⟩, hmem', rfl⟩ := List.mem_map.mp hmem'
    have hclaimed := hinv.finished _ _ _ _ _ (hlog ▸ List.mem_append_left _ hmem')
    exact hnew _ hmem' (hinv.unique _ _ _ _ hclaimed h'.claimed)
  have hsince := sinceSuccess_of_notMem hmem hnot
  rw [hsince, List.mem_append] at hmem
  obtain ⟨failed, hfailed, hlength, hother⟩ := hstreak (hmem.resolve_left hnot)
  exact ⟨failed, hfailed.append hsince, hlength, hother⟩

/-! ### The claim -/

/-- What a claim has taken: each attempt is one more than the committed row has
had, and no more than the transaction's own row has. -/
structure Taking (claimed : List ClaimedRow) (t : Transaction Key Row)
    (σ : Shared S Key Row Note) : Prop where
  keeps : Keeps t σ
  own : ∀ row ∈ claimed, t.own (.delivery row.id)
  before : ∀ row ∈ claimed, ¬(σ.rows (.delivery row.id)).AtLeast row.attempts
  after : ∀ row ∈ claimed, (t.view σ (.delivery row.id)).AtLeast row.attempts
  budget : ∀ row ∈ claimed, row.attempts ≤ MAX_ATTEMPTS
  nodup : (claimed.map attemptOf).Nodup

variable {claimed : List ClaimedRow}

theorem stable_taking : Stable (discipline S) s (Taking claimed) := by
  intro t σ σ' h hrely hinv
  have hsame (row : ClaimedRow) (hrow : row ∈ claimed) :
      σ'.rows (.delivery row.id) = σ.rows (.delivery row.id) := hrely.1 _ (h.own row hrow)
  refine { h with keeps := stable_evolved t σ σ' h.keeps hrely hinv, before := ?_, after := ?_ }
  · exact fun row hrow => hsame row hrow ▸ h.before row hrow
  · intro row hrow
    rw [Transaction.view_congr fun _ => hsame row hrow]
    exact h.after row hrow

/-- The candidate's row is as it was read, and is claimed. -/
theorem Taking.take (h : Taking claimed t σ) {old new : Delivery}
    (hview : t.view σ (.delivery row.id) = .delivery (some old))
    (hold : old.attempts = row.attempts) (hnew : new.attempts = row.attempts + 1)
    (hlt : row.attempts < MAX_ATTEMPTS) :
    Taking (claimed ++ [{ row with attempts := row.attempts + 1 }])
      (t.run [] [(.delivery row.id, .delivery (some new))]) σ := by
  have hfresh : ¬(t.view σ (.delivery row.id)).AtLeast (row.attempts + 1) := by
    rw [hview]
    change ¬row.attempts + 1 ≤ old.attempts
    omega
  have hevolves : Evolves (fun _ _ => False) (.delivery row.id) (t.view σ (.delivery row.id))
      (.delivery (some new)) := by
    rw [hview]
    intro attempt (hattempt : attempt ≤ old.attempts)
    change attempt ≤ new.attempts
    omega
  refine ⟨h.keeps.run evolves_trans fun k row' hmem => ?_, fun r hr => ?_, fun r hr => ?_,
    fun r hr => ?_, fun r hr => ?_, ?_⟩
  · obtain ⟨rfl, rfl⟩ := Prod.mk.inj (List.mem_singleton.mp hmem)
    exact hevolves
  · rcases List.mem_append.mp hr with hr | hr
    · exact Or.inl (h.own r hr)
    · obtain rfl := List.mem_singleton.mp hr
      exact Or.inr (by simp)
  · rcases List.mem_append.mp hr with hr | hr
    · exact h.before r hr
    · obtain rfl := List.mem_singleton.mp hr
      exact fun hbefore => hfresh (h.keeps.row (.delivery row.id) _ hbefore)
  · rw [Transaction.view_run, overlay_cons, overlay_nil]
    rcases List.mem_append.mp hr with hr | hr
    · by_cases hid : r.id = row.id
      · rw [hid, Function.update_self]
        exact hevolves _ (hid ▸ h.after r hr)
      · rw [Function.update_of_ne (by simpa using hid)]
        exact h.after r hr
    · obtain rfl := List.mem_singleton.mp hr
      rw [Function.update_self]
      exact hnew.ge
  · rcases List.mem_append.mp hr with hr | hr
    · exact h.budget r hr
    · obtain rfl := List.mem_singleton.mp hr
      exact hlt
  · rw [List.map_append, List.nodup_append]
    refine ⟨h.nodup, List.nodup_singleton _, fun a ha b hb hab => ?_⟩
    obtain ⟨r, hr, rfl⟩ := List.mem_map.mp ha
    obtain rfl := List.mem_singleton.mp hb
    obtain ⟨hid, hattempts⟩ := Prod.mk.inj hab
    have hafter := h.after r hr
    rw [hid, hattempts] at hafter
    exact hfresh hafter

theorem claim_attempts {rows : WebhookDelivery.Rows} {now : Int} {delivery : Delivery}
    (h : WebhookDelivery.claim rows row now = some delivery) :
    ∃ old, rows row.id = some old ∧ old.attempts = row.attempts ∧
      delivery.attempts = row.attempts + 1 := by
  obtain ⟨old, hold, h⟩ := Option.bind_eq_some_iff.mp h
  split at h
  · rename_i hcond
    obtain rfl := Option.some.inj h
    exact ⟨old, hold, hcond.1, rfl⟩
  · cases h

theorem delivery_of_mem {row : Row} {delivery : Delivery} (h : row.delivery? = some delivery) :
    row = .delivery (some delivery) := by
  cases row with
  | delivery stored => exact congrArg Row.delivery h
  | _ => cases h

theorem triple_claimEach {candidates : List ClaimedRow}
    (hbudget : ∀ row ∈ candidates, row.attempts < MAX_ATTEMPTS) :
    Triple (discipline S) s (Taking claimed) (claimEach candidates)
      fun won => Taking (claimed ++ won) := by
  induction candidates generalizing claimed with
  | nil => exact triple_pure fun _ _ h => by rwa [List.append_nil]
  | cons row candidates ih =>
    have hrest := fun row' hrow' => hbudget row' (List.mem_cons_of_mem row hrow')
    refine Triple.bind (Q := fun won => Taking
      (if won.isSome then claimed ++ [{ row with attempts := row.attempts + 1 }] else claimed))
      (triple_update stable_taking ?_ fun _ _ _ _ h _ _ _ => h) fun won => ?_
    · intro t σ i held stored h _ hf _ _
      obtain ⟨new, hclaim, rfl⟩ := Option.map_eq_some_iff.mp hf
      obtain ⟨old, hold, hattempts, hnew⟩ := claim_attempts hclaim
      exact h.take (delivery_of_mem hold) hattempts hnew (hbudget row List.mem_cons_self)
    · refine Triple.bind (ih hrest) fun more => triple_pure fun t σ h => ?_
      cases won with
      | none => exact h
      | some => simpa using h

theorem triple_claimDue {ids : List DeliveryId} {limit : Nat} :
    Triple (discipline S) s (fun t _ => t = .none) (claimDue ids limit)
      fun batch t σ => t = .none ∧ Batch s batch σ.log := by
  refine triple_transaction (R := fun r t σ =>
    r.1 = r.2.map (fun row => .claimed row.id row.attempts) ∧ Taking r.2 t σ) ?_ ?_ ?_
  · refine Triple.bind (Q := fun candidates t σ => t = .none ∧
      ∀ row ∈ candidates, row.attempts < MAX_ATTEMPTS) (triple_statement stable_none ?_)
      fun candidates => ?_
    · rintro t σ i held rfl _ _ _
      exact ⟨Transaction.run_none, fun row hrow => WebhookDelivery.candidates_attempts_lt hrow⟩
    · by_cases hbudget : ∀ row ∈ candidates, row.attempts < MAX_ATTEMPTS
      · refine Triple.bind (Q := fun won => Taking won) ?_ fun won =>
          triple_pure fun _ _ h => ⟨rfl, h⟩
        refine (@triple_claimEach S s [] candidates hbudget).conseq ?_ fun _ _ _ h => h
        rintro t σ ⟨rfl, _⟩
        exact ⟨evolved_none evolves_refl, by simp, by simp, by simp, by simp, by simp⟩
      · exact fun _ _ _ _ h => absurd h.2 hbudget
  · exact fun r t σ σ' h hrely hinv => ⟨h.1, stable_taking t σ σ' h.2 hrely hinv⟩
  · rintro ⟨notes, won⟩ t σ ⟨hnotes, h⟩ hinv _
    obtain rfl : notes = won.map fun row => .claimed row.id row.attempts := hnotes
    refine ⟨hinv.commit h.keeps ?_ (by simp) (by simp) (fun _ _ hc => hc.elim) ?_ ?_, trivial, rfl,
      fun row hrow => ?_, fun row hrow webhookId status hmem => ?_, h.budget, h.nodup⟩
    · intro id attempt hmem
      obtain ⟨row, hrow, heq⟩ := List.mem_map.mp hmem
      obtain ⟨rfl, rfl⟩ := Note.claimed.inj heq
      exact ⟨h.before row hrow, h.after row hrow⟩
    · refine fun webhookId _ _ hc => hc.append fun note hnote => ?_
      obtain ⟨row, _, rfl⟩ := List.mem_map.mp hnote
      rfl
    · exact disables_of_notMem fun webhookId name n hmem => by simp at hmem
    · exact (mem_noted).mpr (Or.inl ⟨rfl, List.mem_map_of_mem hrow⟩)
    · rcases (mem_noted).mp hmem with ⟨_, hnote⟩ | hold
      · simp at hnote
      · exact h.before row hrow (hinv.claimed _ _ _ (hinv.finished _ _ _ _ _ hold))

/-! ### An attempt -/

theorem triple_deliverOne :
    Triple (discipline S) s (fun t σ => t = .none ∧ Batch s batch σ.log) (deliverOne row)
      fun _ t σ => t = .none ∧ Batch s batch σ.log := by
  have hstable : Stable (discipline S) s fun t σ => t = .none ∧ Batch s batch σ.log :=
    stable_none.and stable_batch
  refine triple_transaction
    (R := fun r t σ => r.1 = [] ∧ t = .none ∧ Batch s batch σ.log) ?_ ?_ ?_
  · refine Triple.bind (Q := fun _ t σ => t = .none ∧ Batch s batch σ.log)
      (triple_select hstable fun _ _ h _ _ _ _ => h) fun webhook => Triple.ite
        (fun _ => triple_pure fun _ _ h => ⟨rfl, h⟩) fun _ => ?_
    refine Triple.bind (Q := fun _ t σ => t = .none ∧ Batch s batch σ.log)
      (triple_select hstable fun _ _ h _ _ _ _ => h) fun delivery => Triple.ite
        (fun _ => triple_pure fun _ _ h => ⟨rfl, h⟩) fun _ => ?_
    refine Triple.bind (Q := fun _ t σ => t = .none ∧ Batch s batch σ.log)
      (triple_statement hstable ?_) fun _ => triple_pure fun _ _ h => ⟨rfl, h⟩
    rintro t σ i held ⟨rfl, h⟩ _ _ _
    exact ⟨Transaction.run_none, h⟩
  · exact fun r t σ σ' h hrely hinv => ⟨h.1, hstable t σ σ' h.2 hrely hinv⟩
  · rintro ⟨notes, outcome⟩ t σ ⟨hnotes, rfl, h⟩ hinv _
    obtain rfl : notes = [] := hnotes
    exact ⟨hinv, trivial, rfl, h⟩

theorem mem_finishedBy {marked : Option Row} {note : Note} (h : note ∈ finishedBy row marked) :
    ∃ status, note = .finished row.webhookId row.id row.attempts status := by
  unfold finishedBy at h
  split at h
  · exact absurd h List.not_mem_nil
  · split at h
    · exact absurd h List.not_mem_nil
    · exact ⟨_, List.mem_singleton.mp h⟩

/-- An UPDATE of one row, in a transaction that knows something of the log. -/
theorem triple_updates_knowing {K : List (S × Note) → Prop}
    (hK : Stable (discipline S) s fun _ σ => K σ.log) {label : Label} {k : Key}
    {f : Env → Row → Option Row} (h : ∀ i row row', f i row = some row' → Evolves count k row row') :
    Triple (discipline S) s (fun t σ => Evolved (Evolves count) t σ ∧ K σ.log) (update label k f)
      fun _ t σ => Evolved (Evolves count) t σ ∧ K σ.log := by
  refine triple_update ((stable_evolved).and hK) ?_ fun _ _ _ _ h _ _ _ => h
  rintro t σ i held row ⟨ht, hlog⟩ _ hf _ _
  refine ⟨ht.run evolves_trans fun k' row' hmem => ?_, hlog⟩
  obtain ⟨rfl, rfl⟩ := Prod.mk.inj (List.mem_singleton.mp hmem)
  exact h i _ _ hf

/-- The mark of a row finishes at most its own attempt. -/
theorem Batch.mark (h : Batch s (row :: batch) log) {marked : Option Row} :
    Batch s batch ((finishedBy row marked).map (Prod.mk s) ++ log) := by
  have hnodup := List.nodup_cons.mp h.nodup
  have htail : Batch s batch log :=
    { claimed := fun r hr => h.claimed r (List.mem_cons_of_mem row hr)
      unfinished := fun r hr => h.unfinished r (List.mem_cons_of_mem row hr)
      budget := fun r hr => h.budget r (List.mem_cons_of_mem row hr)
      nodup := hnodup.2 }
  apply htail.append
  intro r hr webhookId status hmem
  obtain ⟨note, hnote, heq⟩ := List.mem_map.mp hmem
  obtain ⟨status', rfl⟩ := mem_finishedBy hnote
  obtain ⟨_, hid, hattempts, _⟩ := Note.finished.inj (Prod.mk.inj heq).2
  exact hnodup.1 (List.mem_map.mpr ⟨r, hr, Prod.ext hid.symm hattempts.symm⟩)

/-- A success finds the counter at zero, and a death adds to the row of them. -/
theorem counts_of_marked {rows : Rows} {marked : Option Row} {log : List Note}
    (hzero : ∀ note ∈ finishedBy row marked, note.FindsZero rows) {webhookId : WebhookId}
    {webhook : Webhook} (hwebhook : webhook ∈ (rows (.webhook webhookId)).webhook?)
    (h : Counts log webhookId webhook.failureCount) :
    Counts (finishedBy row marked ++ log) webhookId webhook.failureCount := by
  by_cases hsuccess : .finished webhookId row.id row.attempts .succeeded ∈ finishedBy row marked
  · rw [hzero _ hsuccess webhook hwebhook]
    exact counts_zero
  · refine h.append fun note hnote => Bool.eq_false_iff.mpr fun hnot => ?_
    obtain ⟨status, rfl⟩ := mem_finishedBy hnote
    cases status with
    | succeeded =>
      obtain rfl : row.webhookId = webhookId := of_decide_eq_true hnot
      exact hsuccess hnote
    | _ => cases hnot

theorem triple_markOutcome {outcome : DeliveryOutcome} :
    Triple (discipline S) s (fun t σ => t = .none ∧ Batch s (row :: batch) σ.log)
      (markOutcome row outcome) fun _ t σ => t = .none ∧ Batch s batch σ.log ∧
        (MAX_ATTEMPTS ≤ row.attempts → Uncounted s row.id σ.log) := by
  refine triple_transaction (R := fun r t σ => (∃ marked, r.1 = finishedBy row marked) ∧
    Keeps t σ ∧ Batch s (row :: batch) σ.log) ?_ ?_ ?_
  · refine Triple.bind (Q := fun _ t σ => Keeps t σ ∧ Batch s (row :: batch) σ.log) ?_
      fun marked => triple_pure fun _ _ h => ⟨⟨marked, rfl⟩, h⟩
    refine (triple_updates_knowing stable_batch ?_).conseq ?_ fun _ _ _ h => h
    · intro i stored stored' hf attempt hattempt
      obtain ⟨delivery, hdelivery, rfl⟩ := Option.map_eq_some_iff.mp hf
      rw [delivery_of_mem hdelivery] at hattempt
      change attempt ≤ _
      rw [WebhookDelivery.markOutcome_attempts]
      exact hattempt
    · rintro t σ ⟨rfl, h⟩
      exact ⟨evolved_none evolves_refl, h⟩
  · rintro r t σ σ' ⟨hnotes, h⟩ hrely hinv
    exact ⟨hnotes, ((stable_evolved).and stable_batch) t σ σ' h hrely hinv⟩
  · rintro ⟨notes, u⟩ t σ ⟨⟨marked, hnotes⟩, hkeeps, h⟩ hinv hc
    obtain rfl : notes = finishedBy row marked := hnotes
    have hmem {note : Note} (hnote : note ∈ finishedBy row marked) := mem_finishedBy hnote
    refine ⟨hinv.commit hkeeps ?_ ?_ ?_ (fun _ _ hc => hc.elim) ?_ ?_, trivial, rfl, h.mark,
      fun hlast => ⟨?_, fun webhookId hcounted => ?_⟩⟩
    · exact fun id attempt hnote => absurd (hmem hnote) (by simp)
    · intro webhookId id attempt status hnote
      obtain ⟨_, heq⟩ := hmem hnote
      obtain ⟨_, rfl, rfl, _⟩ := Note.finished.inj heq
      exact h.claimed row List.mem_cons_self
    · exact fun webhookId id hnote => absurd (hmem hnote) (by simp)
    · exact fun webhookId webhook hwebhook hcounts => counts_of_marked hc hwebhook hcounts
    · exact disables_of_notMem fun webhookId name n hnote => absurd (hmem hnote) (by simp)
    · have hlast' := Nat.le_antisymm (h.budget row List.mem_cons_self) hlast
      exact (mem_noted).mpr (Or.inr (hlast' ▸ h.claimed row List.mem_cons_self))
    · have hlast' := Nat.le_antisymm (h.budget row List.mem_cons_self) hlast
      rcases (mem_noted).mp hcounted with ⟨_, hnote⟩ | hold
      · exact absurd (hmem hnote) (by simp)
      · exact h.unfinished row List.mem_cons_self webhookId .dead
          (hlast' ▸ hinv.counted s webhookId row.id hold)

/-! ### The count -/

/-- What the worker knows while it counts a death, having read the counter. -/
abbrev Knows (s : S) (row : ClaimedRow) (batch : List ClaimedRow) (n : Nat)
    (log : List (S × Note)) : Prop :=
  Batch s batch log ∧ Uncounted s row.id log ∧ Streak row n log

theorem stable_knows {n : Nat} : Stable (discipline S) s fun _ σ => Knows s row batch n σ.log :=
  (stable_batch).and stable_streak

/-- The counter that is read stands for deliveries that have been counted, so
not for this one. -/
theorem Inv.streak {rows : Rows} (hinv : Inv rows log) (h : Uncounted s row.id log)
    {webhook : Webhook} (hwebhook : webhook ∈ (rows (.webhook row.webhookId)).webhook?) :
    Streak row webhook.failureCount log := by
  intro _
  obtain ⟨failed, hfailed, hlength⟩ := hinv.counts row.webhookId webhook hwebhook
  refine ⟨failed, hfailed, hlength, fun hmem => ?_⟩
  obtain ⟨⟨s', note⟩, hcounted, rfl⟩ := List.mem_map.mp (hfailed.counted row.id hmem)
  have hfinished := hinv.counted s' row.webhookId row.id hcounted
  obtain rfl := hinv.unique s' s _ _ (hinv.finished _ _ _ _ _ hfinished) h.claimed
  exact h.uncounted row.webhookId hcounted

/-- The counter of the endpoint is one more than was read. -/
def CountOf (row : ClaimedRow) (n : Nat) (webhookId : WebhookId) (m : Nat) : Prop :=
  webhookId = row.webhookId ∧ m = n + 1

/-- What a count notes: that it has counted, and where it disables the endpoint
that it has. -/
inductive CountNotes (row : ClaimedRow) (n : Nat) : List Note → Prop where
  | counted : CountNotes row n [.counted row.webhookId row.id]
  | disabled {name : String} : DISABLE_AFTER_FAILURES ≤ n + 1 → CountNotes row n
      [.counted row.webhookId row.id, .webhookAutoDisabled row.webhookId name (n + 1)]

theorem CountNotes.counted_mem {n : Nat} (h : CountNotes row n notes) :
    .counted row.webhookId row.id ∈ notes := by
  cases h <;> exact List.mem_cons_self

theorem CountNotes.isSuccess {n : Nat} (h : CountNotes row n notes) (webhookId : WebhookId) :
    ∀ note ∈ notes, note.isSuccess webhookId = false := by
  cases h <;> simp [Note.isSuccess]

/-- A death counted in time makes one failure more in a row. -/
theorem Streak.counts {n : Nat} (h : Streak row n log) (hnotes : CountNotes row n notes)
    (hintime : .finished row.webhookId row.id MAX_ATTEMPTS .dead ∈
      sinceSuccess (log.map Prod.snd) row.webhookId) :
    Counts (notes ++ log.map Prod.snd) row.webhookId (n + 1) ∧
      Disables notes (log.map Prod.snd) := by
  obtain ⟨failed, hfailed, rfl, hother⟩ := h hintime
  have hnodup : (row.id :: failed).Nodup := List.nodup_cons.mpr ⟨hother, hfailed.nodup⟩
  have hdied : ∀ id ∈ row.id :: failed, .finished row.webhookId id MAX_ATTEMPTS .dead ∈
      sinceSuccess (log.map Prod.snd) row.webhookId := by
    intro id hid
    rcases List.mem_cons.mp hid with rfl | hid
    · exact hintime
    · exact hfailed.died id hid
  refine ⟨⟨row.id :: failed, ⟨hnodup, fun id hid => ?_, fun id hid => ?_⟩, rfl⟩, ?_⟩
  · rw [sinceSuccess_append (hnotes.isSuccess _)]
    exact List.mem_append_right _ (hdied id hid)
  · rcases List.mem_cons.mp hid with rfl | hid
    · exact List.mem_append_left _ hnotes.counted_mem
    · exact List.mem_append_right _ (hfailed.counted id hid)
  · cases hnotes with
    | counted => exact disables_of_notMem fun _ _ _ hmem => by simp at hmem
    | disabled hreached =>
      intro newer webhookId name' m older heq
      have hlength := length_le_deadSince hnodup hdied
      rcases newer with _ | ⟨note, _ | ⟨note', newer⟩⟩
      · cases heq
      · obtain ⟨-, htail⟩ := List.cons.inj heq
        obtain ⟨hnote, rfl⟩ := List.cons.inj htail
        obtain ⟨rfl, -, -⟩ := Note.webhookAutoDisabled.inj hnote
        exact Nat.le_trans hreached hlength
      · have := congrArg List.length heq
        simp at this

/-- The transaction has counted at most this death, from the counter that it read. -/
abbrev Counting (s : S) (row : ClaimedRow) (batch : List ClaimedRow) (n : Nat)
    (t : Transaction Key Row) (σ : Shared S Key Row Note) : Prop :=
  Evolved (Evolves (CountOf row n)) t σ ∧ Knows s row batch n σ.log

theorem triple_counting {n : Nat} {label : Label} {k : Key} {f : Env → Row → Option Row}
    (h : ∀ i stored stored', f i stored = some stored' → Evolves (CountOf row n) k stored stored') :
    Triple (discipline S) s (Counting s row batch n) (update label k f)
      fun _ => Counting s row batch n :=
  triple_updates_knowing stable_knows h

theorem triple_registerFailureAndMaybeDisable :
    Triple (discipline S) s
      (fun t σ => t = .none ∧ Batch s batch σ.log ∧ Uncounted s row.id σ.log)
      (registerFailureAndMaybeDisable row) fun _ t σ => t = .none ∧ Batch s batch σ.log := by
  have hstable : Stable (discipline S) s
      fun t σ => t = .none ∧ Batch s batch σ.log ∧ Uncounted s row.id σ.log :=
    stable_none.and ((stable_batch).and stable_uncounted)
  refine triple_transaction_history (R := fun r t σ =>
    (r.1 = [] ∧ t = .none ∧ Batch s batch σ.log) ∨
    ∃ n, CountNotes row n r.1 ∧ Counting s row batch n t σ) ?_ ?_ ?_
  · refine Triple.bind (Q := fun webhook t σ => t = .none ∧ Batch s batch σ.log ∧
      ∀ w ∈ webhook, Knows s row batch w.failureCount σ.log)
      (triple_select hstable fun t σ ⟨ht, h, huncounted⟩ hinv i held _ => ?_) fun webhook => ?_
    · refine ⟨ht, h, fun webhook hwebhook => ⟨h, huncounted, ?_⟩⟩
      have hview : Inv (t.view σ) σ.log := by
        rw [ht]
        exact hinv
      exact hview.streak huncounted (mem_of_inOrg hwebhook)
    cases webhook with
    | none => exact triple_pure fun _ _ h => Or.inl ⟨rfl, h.1, h.2.1⟩
    | some webhook =>
      refine Triple.ite (fun _ => triple_pure fun _ _ h => Or.inl ⟨rfl, h.1, h.2.1⟩) fun _ => ?_
      refine Triple.bind (Q := fun _ => Counting s row batch webhook.failureCount)
        ((triple_counting ?_).conseq ?_ fun _ _ _ h => h) fun _ => Triple.ite
          (fun _ => triple_pure fun _ _ h => Or.inr ⟨webhook.failureCount, .counted, h⟩)
          fun hreached => ?_
      · intro i stored stored' hf
        obtain ⟨old, hold, rfl⟩ := Option.map_eq_some_iff.mp hf
        intro new hnew
        obtain rfl := Option.some.inj hnew
        exact Or.inr (Or.inl ⟨rfl, rfl⟩)
      · rintro t σ ⟨rfl, _, h⟩
        exact ⟨evolved_none evolves_refl, h webhook rfl⟩
      refine Triple.bind (triple_counting ?_) fun _ => Triple.bind (triple_counting ?_) fun _ =>
        triple_pure fun _ _ h => Or.inr ⟨webhook.failureCount, .disabled (by omega), h⟩
      · intro i stored stored' hf
        obtain ⟨old, hold, hf⟩ := Option.bind_eq_some_iff.mp hf
        obtain ⟨_, heq⟩ := Option.ite_none_right_eq_some.mp hf
        obtain rfl := Option.some.inj heq
        exact evolves_rewritten hold (Or.inr rfl)
      · exact fun _ _ _ _ => trivial
  · rintro r t σ σ' (⟨hnotes, ht, h⟩ | ⟨n, hnotes, h⟩) hrely hinv
    · exact Or.inl ⟨hnotes, ht, stable_batch t σ σ' h hrely hinv⟩
    · exact Or.inr ⟨n, hnotes, ((stable_evolved).and stable_knows) t σ σ' h hrely hinv⟩
  · rintro ⟨notes, disabled⟩ t σ (⟨hnotes, rfl, h⟩ | ⟨n, hnotes, ht, h, huncounted, hstreak⟩)
      hinv _ hc
    · obtain rfl : notes = [] := hnotes
      exact ⟨hinv, trivial, rfl, h⟩
    · have hintime := hc _ hnotes.counted_mem
      obtain ⟨hcounts, hdisables⟩ := Streak.counts hstreak hnotes hintime
      refine ⟨hinv.commit ht ?_ ?_ ?_ ?_ ?_ hdisables, trivial, rfl, h.append ?_⟩
      · exact fun id attempt hmem => by cases hnotes <;> simp at hmem
      · exact fun webhookId id attempt status hmem => by cases hnotes <;> simp at hmem
      · intro webhookId id hmem
        obtain ⟨rfl, rfl⟩ : webhookId = row.webhookId ∧ id = row.id := by
          cases hnotes <;> simpa using hmem
        exact hinv.claimant huncounted.claimed ((List.takeWhile_sublist _).mem hintime)
      · rintro webhookId m ⟨rfl, rfl⟩
        exact hcounts
      · exact fun webhookId webhook _ h => h.append (hnotes.isSuccess webhookId)
      · intro r _ webhookId status hmem
        obtain ⟨note, hnote, heq⟩ := List.mem_map.mp hmem
        obtain rfl := (Prod.mk.inj heq).2
        cases hnotes <;> simp at hnote

/-! ### Runs -/

theorem triple_registerLast {outcome : DeliveryOutcome} :
    Triple (discipline S) s (fun t σ => t = .none ∧ Batch s batch σ.log ∧
        (MAX_ATTEMPTS ≤ row.attempts → Uncounted s row.id σ.log))
      (registerLast row outcome) fun _ t σ => t = .none ∧ Batch s batch σ.log := by
  have hskip : Triple (discipline S) s (fun t σ => t = .none ∧ Batch s batch σ.log ∧
      (MAX_ATTEMPTS ≤ row.attempts → Uncounted s row.id σ.log))
      (pure false) fun _ t σ => t = .none ∧ Batch s batch σ.log :=
    triple_pure fun _ _ h => ⟨h.1, h.2.1⟩
  cases outcome with
  | succeeded => exact hskip
  | endpoint_disabled => exact hskip
  | failed =>
    refine Triple.ite (fun hlast => ?_) fun _ => hskip
    exact (triple_registerFailureAndMaybeDisable).conseq (fun _ _ h => ⟨h.1, h.2.1, h.2.2 hlast⟩)
      fun _ _ _ h => h

theorem triple_deliverEach {result : WebhookDrainResult} :
    Triple (discipline S) s (fun t σ => t = .none ∧ Batch s batch σ.log)
      (deliverEach batch result) fun _ t _ => t = .none := by
  induction batch generalizing result with
  | nil => exact triple_pure fun _ _ h => h.1
  | cons row batch ih =>
    exact Triple.bind triple_deliverOne fun outcome => Triple.bind triple_markOutcome fun _ =>
      Triple.bind triple_registerLast fun disabled => ih

theorem safe_calls {webhookIds : List WebhookId} {ids : List DeliveryId} (c : Call) (s : S)
    (σ : Shared S Key Row Note) : Safe (discipline S) s (calls webhookIds ids c) .none σ := by
  cases c with
  | createWebhook => exact (triple_createWebhook).safe σ
  | updateWebhook => exact (triple_updateWebhook).safe σ
  | setWebhookEnabled => exact (triple_setWebhookEnabled).safe σ
  | deleteWebhook => exact (triple_deleteWebhook).safe σ
  | enqueueWebhookDelivery => exact (triple_enqueueWebhookDelivery).safe σ
  | drainWebhookDeliveries =>
    exact (Triple.bind triple_claimDue fun batch => triple_deliverEach).safe σ

theorem inv_noWebhooks : Inv noWebhooks ([] : List (S × Note)) := by
  refine ⟨by simp, by simp, by simp, by simp, fun _ _ h => ?_, by simp⟩
  simp [noWebhooks, Row.webhook?] at h

/-- **An endpoint is disabled only for failures in a row** where no success finds
its counter above zero or comes between a death and its count: whenever a worker
has disabled it, at least as many different deliveries to it as the threshold had
ended dead since one last succeeded. -/
theorem disabled_for_failures_in_a_row {S : Type} [DecidableEq S] {webhookIds : List WebhookId}
    {ids : List DeliveryId} {sys : System S Key Row Label Env Note}
    (h : StepSystem.ReachableWhen (Script.step (calls webhookIds ids)) unbrokenStreaks.Meets
      (Script.initial noWebhooks) sys) {newer older : List (S × Note)} {s : S}
    {webhookId : WebhookId} {name : String} {n : Nat}
    (hlog : sys.log = newer ++ (s, .webhookAutoDisabled webhookId name n) :: older) :
    DISABLE_AFTER_FAILURES ≤ (deadSince (older.map Prod.snd) webhookId).dedup.length := by
  have hv := valid_of_reachable discipline_lawful (fun c s σ _ => safe_calls c s σ)
    inv_noWebhooks h
  exact hv.inv.disabled newer s webhookId name n older hlog

/-! ### Five deaths -/

/-- A call whose statements, so many, are all told the same. -/
def whole (c : Call) (env : Env) (steps : Nat) : List (Unit × Input Call Env) :=
  ((), .call c) :: List.replicate steps ((), .next env)

/-- The endpoint does not answer. -/
def unanswered (now : Int) : Env := ⟨now, .failed none "the request failed"⟩

def register : List (Unit × Input Call Env) :=
  whole (.createWebhook "o" "ada" "w" "builds" "https://builds.example" true) (unanswered 0) 2

def enqueue (id : DeliveryId) : List (Unit × Input Call Env) :=
  whole (.enqueueWebhookDelivery true
    { id := id, orgId := "o", webhookId := "w", eventId := id, eventName := "card.created",
      payload := "{}" }) (unanswered 0) 3

/-- A delivery that fails six times; the last drain makes so many steps. -/
def failSixTimes (id : DeliveryId) (steps : Nat) : List (Unit × Input Call Env) :=
  enqueue id ++
    [1, 2, 3, 4, 5].flatMap (fun hours => whole .drainWebhookDeliveries
      (unanswered (hours * 3600000)) 9) ++
    whole .drainWebhookDeliveries (unanswered 21600000) steps

/-- A delivery that is answered at once. -/
def deliver (id : DeliveryId) : List (Unit × Input Call Env) :=
  enqueue id ++ whole .drainWebhookDeliveries ⟨1, .succeeded 200⟩ 9

def sixIds : List DeliveryId := ["a", "b", "c", "d", "e", "f"]

/-- What the last drain has noted at the end of these runs. -/
def lastNotes (id : DeliveryId) : List (Unit × Note) :=
  [((), .counted "w" id), ((), .webhookAutoDisabled "w" "builds" 5)]

/-- Five deliveries that fail one after another disable the endpoint. -/
theorem disabled_for_failures_in_a_row_five :
    ∃ sys : System Unit Key Row Label Env Note, sys.log.take 2 = lastNotes "e" ∧
      DISABLE_AFTER_FAILURES ≤ (deadSince ((sys.log.drop 2).map Prod.snd) "w").dedup.length := by
  have hrun : (StepSystem.runWhen (Script.step (S := Unit) (calls ["w"] sixIds))
      unbrokenStreaks.Meets (Script.initial noWebhooks) (register ++
        ["a", "b", "c", "d"].flatMap (fun id => failSixTimes id 12) ++ failSixTimes "e" 14)).map
      (·.log.take 2) = some (lastNotes "e") := by
    decide +kernel
  obtain ⟨sys, hsys, htake⟩ := Option.map_eq_some_iff.mp hrun
  have hlog : sys.log = [((), .counted "w" "e")] ++
      ((), .webhookAutoDisabled "w" "builds" 5) :: sys.log.drop 2 :=
    (List.take_append_drop 2 sys.log).symm.trans (by rw [htake]; rfl)
  exact ⟨sys, htake,
    disabled_for_failures_in_a_row (StepSystem.reachableWhen_of_runWhen hsys) hlog⟩

/-- Four deliveries fail, one succeeds and one more fails: the endpoint is
disabled, and one delivery to it has died since one succeeded. -/
theorem disabled_after_success :
    ∃ sys : System Unit Key Row Label Env Note,
      StepSystem.Reachable (Script.step (calls ["w"] sixIds)) (Script.initial noWebhooks) sys ∧
      sys.log.take 2 = lastNotes "f" ∧ deadSince ((sys.log.drop 2).map Prod.snd) "w" = ["f"] := by
  have hrun : (StepSystem.run (Script.step (S := Unit) (calls ["w"] sixIds))
      (Script.initial noWebhooks) (register ++
        ["a", "b", "c", "d"].flatMap (fun id => failSixTimes id 12) ++ deliver "e" ++
        failSixTimes "f" 14)).map
      (fun sys => (sys.log.take 2, deadSince ((sys.log.drop 2).map Prod.snd) "w")) =
      some (lastNotes "f", ["f"]) := by
    decide +kernel
  obtain ⟨sys, hsys, hpair⟩ := Option.map_eq_some_iff.mp hrun
  obtain ⟨htake, hdead⟩ := Prod.mk.inj hpair
  exact ⟨sys, StepSystem.reachable_of_run hsys, htake, hdead⟩

end WebhookHealth
end TaskFlow
