import TaskFlow.Policy

/-! # What the policy engine reads, hides and admits

The decision of `can` on a target reads the role, the individual grants and the
relations on the nearest object of the chain, and no other tuple.  A target of
another organization, or a closed one whose chain carries no tuple of the
subject, is not found whatever else the subject holds.  The check a route makes
first refuses nothing that `can` would allow.
-/
namespace TaskFlow
namespace Policy
open Nearest

variable {subject subject' : Subject} {permission : Permission} {target : Target}

/-- The answer of a decision, without its trace. -/
def Decision.answer (decision : Decision) : Bool × String := (decision.allowed, decision.reason)

def Ruling.answer (ruling : Ruling) : Bool × String := (ruling.allowed, ruling.reason)

/-- The relation is held on the nearest object of the chain. -/
def HeldNearest (tuples : List RelationshipTuple) (target : Target) (relation : Relation) : Prop :=
  ∃ tuple ∈ nearestApplicable tuples target, tuple.relation = relation

/-- Two subjects of one organization that `can` must not tell apart. -/
structure SameStanding (subject subject' : Subject) (permission : Permission) (target : Target) :
    Prop where
  orgId : subject.orgId = subject'.orgId
  role : subject.role = subject'.role
  memberGrant : hasMemberGrant subject permission = hasMemberGrant subject' permission
  relations : ∀ relation, HeldNearest subject.tuples target relation ↔
    HeldNearest subject'.tuples target relation

theorem SameStanding.byRole (h : SameStanding subject subject' permission target) :
    byRole subject permission = byRole subject' permission := by
  rw [byRole_eq, byRole_eq, h.role, h.memberGrant]

theorem SameStanding.roleReason (h : SameStanding subject subject' permission target) :
    roleReason subject permission = roleReason subject' permission := by
  unfold Policy.roleReason grantedByMemberGrant
  rw [h.byRole, h.role, h.memberGrant]

/-- A property of relations holds of some nearest tuple of both, or of neither. -/
theorem SameStanding.exists_iff (h : SameStanding subject subject' permission target)
    (P : Relation → Prop) :
    (∃ tuple ∈ nearestApplicable subject.tuples target, P tuple.relation) ↔
      ∃ tuple ∈ nearestApplicable subject'.tuples target, P tuple.relation := by
  constructor
  · rintro ⟨tuple, hmem, hP⟩
    obtain ⟨tuple', hmem', heq⟩ := (h.relations tuple.relation).mp ⟨tuple, hmem, rfl⟩
    exact ⟨tuple', hmem', heq ▸ hP⟩
  · rintro ⟨tuple, hmem, hP⟩
    obtain ⟨tuple', hmem', heq⟩ := (h.relations tuple.relation).mpr ⟨tuple, hmem, rfl⟩
    exact ⟨tuple', hmem', heq ▸ hP⟩

theorem SameStanding.nearest_eq_nil_iff (h : SameStanding subject subject' permission target) :
    nearestApplicable subject.tuples target = [] ↔
      nearestApplicable subject'.tuples target = [] := by
  have hsome := h.exists_iff fun _ => True
  simp only [and_true] at hsome
  rw [List.eq_nil_iff_forall_not_mem, List.eq_nil_iff_forall_not_mem, ← not_exists, ← not_exists,
    hsome]

/-- The answer of a nonempty nearest set. -/
theorem rulingOfTuples_answer {first : RelationshipTuple} {rest : List RelationshipTuple}
    {first' : RelationshipTuple} {rest' : List RelationshipTuple}
    (h : SameStanding subject subject' permission target)
    (hnear : nearestApplicable subject.tuples target = first :: rest)
    (hnear' : nearestApplicable subject'.tuples target = first' :: rest') :
    (rulingOfTuples subject permission first rest).answer =
      (rulingOfTuples subject' permission first' rest').answer := by
  have hgrants := h.exists_iff fun relation => relationGrants relation permission = true
  have hlifts := h.exists_iff fun relation => isRestrictive relation = false
  rw [hnear, hnear'] at hgrants hlifts
  unfold rulingOfTuples Ruling.answer
  simp only [apply_ite Ruling.allowed, apply_ite Ruling.reason, gt_iff_lt, Nat.pos_iff_ne_zero,
    ne_eq, Bool.and_eq_true, decide_eq_true_eq, capped_iff, grants_length_eq_zero_iff, hgrants,
    hlifts, h.byRole, h.roleReason, h.role]

theorem rulingOn_answer (h : SameStanding subject subject' permission target) :
    (rulingOn subject permission target).answer =
      (rulingOn subject' permission target).answer := by
  unfold rulingOn
  cases hnear : nearestApplicable subject.tuples target with
  | nil =>
    rw [h.nearest_eq_nil_iff.mp hnear]
    simp only [rulingWithoutTuples, Ruling.answer, h.byRole, h.roleReason]
  | cons first rest =>
    cases hnear' : nearestApplicable subject'.tuples target with
    | nil => rw [h.nearest_eq_nil_iff.mpr hnear'] at hnear; cases hnear
    | cons first' rest' => exact rulingOfTuples_answer h hnear hnear'

/-- Subjects of the same standing get the same answer. -/
theorem SameStanding.answer (h : SameStanding subject subject' permission target) :
    (can subject permission (some target)).answer =
      (can subject' permission (some target)).answer := by
  obtain ⟨hallowed, hreason⟩ := Prod.mk.inj (rulingOn_answer h)
  unfold can ruling Decision.answer
  rw [h.role, h.orgId]
  by_cases hperm : isPermission permission = true
  swap
  · simp [hperm]
  by_cases hrole : isRole subject'.role = true
  swap
  · simp [hperm, hrole]
  by_cases horg : target.orgId = subject'.orgId <;> simp [hperm, hrole, horg, hallowed, hreason]

/-- Other tuples, with the same relations on the nearest object. -/
theorem sameStanding_of_tuples {tuples : List RelationshipTuple}
    (h : Agree RelationshipTuple.object subject.tuples tuples target.chain) :
    SameStanding subject { subject with tuples } permission target where
  orgId := rfl
  role := rfl
  memberGrant := rfl
  relations relation := by
    unfold HeldNearest
    simp only [nearestApplicable, mem_nearest_congr h]

theorem TuplesAllow.mono {nearest nearest' : List RelationshipTuple}
    (h : TuplesAllow subject permission nearest) (hsub : ∀ tuple ∈ nearest, tuple ∈ nearest') :
    TuplesAllow subject permission nearest' := by
  rcases h with ⟨tuple, hmem, hgrants⟩ | ⟨hrole, hbypass | ⟨tuple, hmem, hlifts⟩⟩
  · exact .inl ⟨tuple, hsub tuple hmem, hgrants⟩
  · exact .inr ⟨hrole, .inl hbypass⟩
  · exact .inr ⟨hrole, .inr ⟨tuple, hsub tuple hmem, hlifts⟩⟩

/-- One more tuple on the nearest object takes no answer back. -/
theorem allowed_insert {left right : List RelationshipTuple} {added held : RelationshipTuple}
    (htuples : subject.tuples = left ++ right)
    (hheld : held ∈ nearestApplicable subject.tuples target) (hadded : added.object = held.object)
    (hallowed : (can subject permission (some target)).allowed = true) :
    (can { subject with tuples := left ++ added :: right } permission (some target)).allowed =
      true := by
  -- what was nearest before is nearest beside the added tuple
  have hmore : ∀ tuple, tuple ∈ nearestApplicable subject.tuples target →
      tuple ∈ nearestApplicable (left ++ added :: right) target := by
    intro tuple hmem
    rw [htuples] at hheld hmem
    exact (mem_nearest_insert hheld hadded).mpr (.inr hmem)
  obtain ⟨hperm, hrole, horg, hcase⟩ := can_allowed_iff.mp hallowed
  refine can_allowed_iff.mpr ⟨hperm, hrole, horg, .inr ⟨List.ne_nil_of_mem (hmore held hheld), ?_⟩⟩
  rcases hcase with ⟨hnil, -⟩ | ⟨-, hallow⟩
  · rw [hnil] at hheld
    exact absurd hheld List.not_mem_nil
  · exact hallow.mono hmore

/-- **`can` reads only the nearest tuples.**  Subjects with the same role and
grants and the same relations on the nearest object of the chain get the same
answer; tuples beyond the nearest object or off the chain, their order and their
repetitions change nothing; and one more tuple on the nearest object turns no
yes into a no. -/
theorem can_reads_nearest (subject : Subject) (permission : Permission) (target : Target) :
    (∀ subject', SameStanding subject subject' permission target →
      (can subject permission (some target)).answer =
        (can subject' permission (some target)).answer) ∧
    (∀ tuples, Agree RelationshipTuple.object subject.tuples tuples target.chain →
      (can subject permission (some target)).answer =
        (can { subject with tuples } permission (some target)).answer) ∧
    ∀ left right added held, subject.tuples = left ++ right →
      held ∈ nearestApplicable subject.tuples target → added.object = held.object →
        (can subject permission (some target)).allowed = true →
          (can { subject with tuples := left ++ added :: right } permission
            (some target)).allowed = true :=
  ⟨fun _ h => h.answer, fun _ h => (sameStanding_of_tuples h).answer,
    fun _ _ _ _ => allowed_insert⟩

/-- A viewer of a board: the relation on the project is not read, and an editor's
on the board takes nothing away. -/
theorem can_reads_nearest_board :
    let target : Target := ⟨"o1", ⟨.card, "k1"⟩, [⟨.board, "b1"⟩, ⟨.project, "p1"⟩], false⟩
    let viewer : RelationshipTuple := ⟨"u1", .viewer, ⟨.board, "b1"⟩⟩
    let owner : RelationshipTuple := ⟨"u1", .owner, ⟨.project, "p1"⟩⟩
    let editor : RelationshipTuple := ⟨"u1", .editor, ⟨.board, "b1"⟩⟩
    let subject : Subject := ⟨"o1", "u1", .member, [viewer, owner], none⟩
    (can subject ⟨.card, .update⟩ (some target)).answer =
        (can { subject with tuples := [viewer, viewer] } ⟨.card, .update⟩ (some target)).answer ∧
      (can { subject with tuples := [viewer, editor, owner] } ⟨.card, .read⟩
        (some target)).allowed = true := by
  intro target viewer owner editor subject
  constructor
  · apply (can_reads_nearest subject ⟨.card, .update⟩ target).2.1 [viewer, viewer]
    simp only [Agree, Target.chain, subject, target, viewer, owner]
    refine ⟨?_, fun _ => ⟨?_, fun h => absurd rfl (h _ List.mem_cons_self)⟩⟩
    · rintro ⟨_, _, _⟩ rfl
      simp
    · rintro ⟨_, _, _⟩ rfl
      simp
  · exact (can_reads_nearest subject ⟨.card, .read⟩ target).2.2 [viewer] [owner] editor viewer rfl
      (by decide) rfl (by decide)

/-! ### Hidden targets -/

/-- The target is of another organization, or closed without a tuple of the
subject on its chain. -/
def Hidden (subject : Subject) (target : Target) : Prop :=
  target.orgId ≠ subject.orgId ∨
    (target.closed = true ∧ ∀ tuple ∈ subject.tuples, tuple.object ∉ target.chain)

theorem can_hidden (permission : Permission) (h : Hidden subject target) :
    (can subject permission (some target)).allowed = false := by
  apply Bool.eq_false_iff.mpr
  intro hallowed
  obtain ⟨-, -, horg, hcase⟩ := can_allowed_iff.mp hallowed
  -- without a tuple a closed target is never left to the role
  rcases h with hforeign | ⟨hclosed, hnone⟩
  · exact hforeign horg
  · have hnil : nearestApplicable subject.tuples target = [] := nearest_eq_nil_iff.mpr hnone
    rcases hcase with ⟨-, hopen, -⟩ | ⟨hsome, -⟩
    · rw [hclosed] at hopen
      cases hopen
    · exact hsome hnil

/-- **A hidden target is not found**, for any permission. -/
theorem enforce_hidden (subject : Subject) (permission : Permission) (target : Target)
    (h : Hidden subject target) :
    enforce subject permission (some target) = .error ⟨.notFound, "Not found."⟩ := by
  have hdenial : denialFor subject permission (some target) = notFound := by
    simp only [denialFor, can_hidden _ h, Bool.false_eq_true, if_false, ite_self]
  simp only [enforce, can_hidden permission h, Bool.false_eq_true, if_false, hdenial, notFound]

/-- An owner with every relation elsewhere does not find a private channel, nor a
card of another organization. -/
theorem enforce_hidden_from_owner :
    let subject : Subject := ⟨"o1", "u1", .owner, [⟨"u1", .owner, ⟨.channel, "c2"⟩⟩], none⟩
    enforce subject ⟨.channel, .manage⟩ (some ⟨"o1", ⟨.channel, "c1"⟩, [], true⟩) =
        .error ⟨.notFound, "Not found."⟩ ∧
      enforce subject ⟨.card, .read⟩ (some ⟨"o2", ⟨.card, "k1"⟩, [⟨.channel, "c2"⟩], false⟩) =
        .error ⟨.notFound, "Not found."⟩ :=
  ⟨enforce_hidden _ _ _ (.inr ⟨rfl, by decide⟩), enforce_hidden _ _ _ (.inl (by decide))⟩

/-! ### The check of a route -/

theorem exists_grants_of_tuplesAllow {nearest : List RelationshipTuple}
    (h : TuplesAllow subject permission nearest) :
    byRole subject permission = true ∨
      ∃ tuple ∈ nearest, relationGrants tuple.relation permission = true := by
  rcases h with hgrants | ⟨hrole, -⟩
  · exact .inr hgrants
  · exact .inl hrole

/-- What `can` allows is allowed by the role, by an individual grant or by some
tuple of the subject. -/
theorem source_of_allowed {target : Option Target}
    (h : (can subject permission target).allowed = true) :
    isRole subject.role = true ∧ (byRole subject permission = true ∨
      ∃ tuple ∈ subject.tuples, relationGrants tuple.relation permission = true) := by
  cases target with
  | none =>
    obtain ⟨-, hrole, hby⟩ := can_none_allowed_iff.mp h
    exact ⟨hrole, .inl hby⟩
  | some target =>
    obtain ⟨-, hrole, -, ⟨-, -, hby⟩ | ⟨-, hallow⟩⟩ := can_allowed_iff.mp h
    · exact ⟨hrole, .inl hby⟩
    · refine ⟨hrole, (exists_grants_of_tuplesAllow hallow).imp_right ?_⟩
      rintro ⟨tuple, hmem, hgrants⟩
      exact ⟨tuple, mem_entries hmem, hgrants⟩

/-- **`couldGrant` is a sound pre-filter.** -/
theorem couldGrant_sound (subject : Subject) (permission : Permission) :
    (isOrgLevel permission = false → ∀ target,
      (can subject permission target).allowed = true → couldGrant subject permission = true) ∧
    (isOrgLevel permission = true → couldGrant subject permission = true →
      roleGrants subject.role permission = true ∨ hasMemberGrant subject permission = true) := by
  constructor
  · intro horg target hallowed
    obtain ⟨hrole, hsource⟩ := source_of_allowed hallowed
    exact couldGrant_iff.mpr ⟨hrole, hsource.imp_right fun hgrants => ⟨horg, hgrants⟩⟩
  · intro horg hcould
    obtain ⟨-, hby | ⟨hnot, -⟩⟩ := couldGrant_iff.mp hcould
    · exact byRole_iff.mp hby
    · rw [horg] at hnot
      cases hnot

/-- A guest of one channel gets to the handler of a message, and not to the list
of the calls. -/
theorem couldGrant_sound_guest :
    let subject : Subject := ⟨"o1", "u1", .guest, [⟨"u1", .member, ⟨.channel, "c1"⟩⟩],
      some [⟨.sms, .read⟩]⟩
    couldGrant subject ⟨.message, .create⟩ = true ∧
      (roleGrants subject.role ⟨.sms, .read⟩ = true ∨
        hasMemberGrant subject ⟨.sms, .read⟩ = true) :=
  ⟨(couldGrant_sound _ _).1 (by decide) (some ⟨"o1", ⟨.channel, "c1"⟩, [], true⟩) (by decide),
    (couldGrant_sound _ _).2 (by decide) (by decide)⟩

/-! ### What rests on an individual grant -/

/-- The subject as the callers see it that pass no individual grants on. -/
def Subject.withoutGrants (subject : Subject) : Subject := { subject with memberGrants := none }

@[simp] theorem byRole_withoutGrants :
    byRole subject.withoutGrants permission = roleGrants subject.role permission := by
  simp [byRole_eq, hasMemberGrant, Subject.withoutGrants]

/-- The role does not give the permission, an individual grant does, and the
tuples leave the answer to them. -/
def RestsOnGrant (subject : Subject) (permission : Permission) (target : Option Target) : Prop :=
  roleGrants subject.role permission = false ∧ hasMemberGrant subject permission = true ∧
    ∀ t ∈ target,
      (nearestApplicable subject.tuples t = [] ∧ t.closed = false) ∨
        (nearestApplicable subject.tuples t ≠ [] ∧
          (∀ tuple ∈ nearestApplicable subject.tuples t,
            relationGrants tuple.relation permission = false) ∧
          (bypassesRestrictions subject.role = true ∨
            ∃ tuple ∈ nearestApplicable subject.tuples t,
              isRestrictive tuple.relation = false))

/-- What a subject of this build may be asked about an object of its own
organization. -/
structure Askable (subject : Subject) (permission : Permission) (target : Option Target) :
    Prop where
  permission : isPermission permission = true
  role : isRole subject.role = true
  orgId : ∀ t ∈ target, t.orgId = subject.orgId

theorem not_allowed_of_restsOnGrant {target : Option Target}
    (h : RestsOnGrant subject permission target) :
    (can subject.withoutGrants permission target).allowed = false := by
  -- without the grants neither the role nor a tuple gives the permission
  obtain ⟨hrole, -, htuples⟩ := h
  apply Bool.eq_false_iff.mpr
  intro hallowed
  cases target with
  | none =>
    obtain ⟨-, -, hby⟩ := can_none_allowed_iff.mp hallowed
    simp [hrole] at hby
  | some t =>
    obtain ⟨-, -, -, ⟨-, -, hby⟩ | ⟨hsome, ⟨tuple, hmem, hgrants⟩ | ⟨hby, -⟩⟩⟩ :=
      can_allowed_iff.mp hallowed
    · simp [hrole] at hby
    · rcases htuples t rfl with ⟨hnil, -⟩ | ⟨-, hnone, -⟩
      · exact hsome hnil
      · rw [hnone tuple hmem] at hgrants
        cases hgrants
    · simp [hrole] at hby

theorem TuplesAllow.withoutGrants {nearest : List RelationshipTuple}
    (h : TuplesAllow subject.withoutGrants permission nearest) :
    TuplesAllow subject permission nearest := by
  refine h.imp_right fun ⟨hby, hrest⟩ => ⟨byRole_iff.mpr (.inl ?_), hrest⟩
  rwa [byRole_withoutGrants] at hby

/-- Individual grants only add. -/
theorem allowed_of_withoutGrants {target : Option Target}
    (h : (can subject.withoutGrants permission target).allowed = true) :
    (can subject permission target).allowed = true := by
  cases target with
  | none =>
    obtain ⟨hperm, hrole, hby⟩ := can_none_allowed_iff.mp h
    rw [byRole_withoutGrants] at hby
    exact can_none_allowed_iff.mpr ⟨hperm, hrole, byRole_iff.mpr (.inl hby)⟩
  | some t =>
    obtain ⟨hperm, hrole, horg, hcase⟩ := can_allowed_iff.mp h
    refine can_allowed_iff.mpr ⟨hperm, hrole, horg, hcase.imp ?_ ?_⟩
    · rintro ⟨hnil, hopen, hby⟩
      rw [byRole_withoutGrants] at hby
      exact ⟨hnil, hopen, byRole_iff.mpr (.inl hby)⟩
    · exact fun ⟨hsome, hallow⟩ => ⟨hsome, hallow.withoutGrants⟩

theorem restsOnGrant_none (hrole : roleGrants subject.role permission = false)
    (hgrant : hasMemberGrant subject permission = true) : RestsOnGrant subject permission none :=
  ⟨hrole, hgrant, fun _ h => nomatch h⟩

/-- Where the role gives the permission no grant is asked for. -/
theorem withoutGrants_of_role {target : Option Target}
    (hrole : roleGrants subject.role permission = true)
    (h : (can subject permission target).allowed = true) :
    (can subject.withoutGrants permission target).allowed = true := by
  have hby : byRole subject.withoutGrants permission = true := by rwa [byRole_withoutGrants]
  cases target with
  | none =>
    obtain ⟨hperm, hknown, -⟩ := can_none_allowed_iff.mp h
    exact can_none_allowed_iff.mpr ⟨hperm, hknown, hby⟩
  | some t =>
    obtain ⟨hperm, hknown, horg, hcase⟩ := can_allowed_iff.mp h
    refine can_allowed_iff.mpr ⟨hperm, hknown, horg, hcase.imp ?_ ?_⟩
    · rintro ⟨hnil, hopen, -⟩
      exact ⟨hnil, hopen, hby⟩
    · rintro ⟨hsome, hallow⟩
      refine ⟨hsome, hallow.imp_right ?_⟩
      rintro ⟨-, hrest⟩
      exact ⟨hby, hrest⟩

/-- Where the role does not give it, a tuple does or the answer rests on a grant. -/
theorem restsOnGrant_of_allowed {target : Option Target}
    (hrole : roleGrants subject.role permission = false)
    (h : (can subject permission target).allowed = true) :
    (can subject.withoutGrants permission target).allowed = true ∨
      RestsOnGrant subject permission target := by
  have hgrant : byRole subject permission = true → hasMemberGrant subject permission = true :=
    fun hby => (byRole_iff.mp hby).resolve_left (by simp [hrole])
  cases target with
  | none =>
    obtain ⟨-, -, hby⟩ := can_none_allowed_iff.mp h
    exact .inr (restsOnGrant_none hrole (hgrant hby))
  | some t =>
    obtain ⟨hperm, hknown, horg, ⟨hnil, hopen, hby⟩ | ⟨hsome, hallow⟩⟩ := can_allowed_iff.mp h
    · refine .inr ⟨hrole, hgrant hby, ?_⟩
      rintro _ ⟨⟩
      exact .inl ⟨hnil, hopen⟩
    · rcases hallow with hgrants | ⟨hby, hrest⟩
      · exact .inl (can_allowed_iff.mpr ⟨hperm, hknown, horg, .inr ⟨hsome, .inl hgrants⟩⟩)
      by_cases hgrants : ∃ tuple ∈ nearestApplicable subject.tuples t,
          relationGrants tuple.relation permission = true
      · exact .inl (can_allowed_iff.mpr ⟨hperm, hknown, horg, .inr ⟨hsome, .inl hgrants⟩⟩)
      · refine .inr ⟨hrole, hgrant hby, ?_⟩
        rintro _ ⟨⟩
        refine .inr ⟨hsome, fun tuple hmem => Bool.eq_false_iff.mpr fun hg => ?_, hrest⟩
        exact hgrants ⟨tuple, hmem, hg⟩

theorem allowed_of_restsOnGrant {target : Option Target} (hask : Askable subject permission target)
    (h : RestsOnGrant subject permission target) :
    (can subject permission target).allowed = true := by
  obtain ⟨-, hgrant, htuples⟩ := h
  have hby : byRole subject permission = true := byRole_iff.mpr (.inr hgrant)
  cases target with
  | none => exact can_none_allowed_iff.mpr ⟨hask.permission, hask.role, hby⟩
  | some t =>
    refine can_allowed_iff.mpr ⟨hask.permission, hask.role, hask.orgId t rfl, ?_⟩
    rcases htuples t rfl with ⟨hnil, hopen⟩ | ⟨hsome, -, hrest⟩
    · exact .inl ⟨hnil, hopen, hby⟩
    · exact .inr ⟨hsome, .inr ⟨hby, hrest⟩⟩

/-- **Without the individual grants, `can` allows what does not rest on one.** -/
theorem allowed_iff_withoutGrants {target : Option Target}
    (hask : Askable subject permission target) :
    (can subject permission target).allowed = true ↔
      (can subject.withoutGrants permission target).allowed = true ∨
        RestsOnGrant subject permission target := by
  constructor
  · intro h
    cases hrole : roleGrants subject.role permission with
    | true => exact .inl (withoutGrants_of_role hrole h)
    | false => exact restsOnGrant_of_allowed hrole h
  · rintro (h | h)
    · exact allowed_of_withoutGrants h
    · exact allowed_of_restsOnGrant hask h

/-- Every relation reads: what reading rests on a grant has no tuple on its chain. -/
theorem restsOnGrant_read_iff (hperm : isPermission permission = true)
    (hread : permission.action = .read) : RestsOnGrant subject permission (some target) ↔
      roleGrants subject.role permission = false ∧ hasMemberGrant subject permission = true ∧
        target.closed = false ∧ ∀ tuple ∈ subject.tuples, tuple.object ∉ target.chain := by
  constructor
  · rintro ⟨hrole, hgrant, htuples⟩
    rcases htuples target rfl with ⟨hnil, hopen⟩ | ⟨hsome, hnone, -⟩
    · exact ⟨hrole, hgrant, hopen, nearest_eq_nil_iff.mp hnil⟩
    · obtain ⟨tuple, hmem⟩ := List.exists_mem_of_ne_nil _ hsome
      have hgrants := hnone tuple hmem
      rw [relationGrants_read tuple.relation hperm hread] at hgrants
      cases hgrants
  · rintro ⟨hrole, hgrant, hopen, hnone⟩
    refine ⟨hrole, hgrant, ?_⟩
    rintro _ ⟨⟩
    exact .inl ⟨nearest_eq_nil_iff.mpr hnone, hopen⟩

end Policy
end TaskFlow
