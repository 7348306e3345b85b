import TaskFlow.Nearest
import TaskFlow.Permissions

/-! # The policy engine

`can` decides whether a subject may perform a permission, optionally on a
target; it reads nothing but what it is given.  `couldGrant` is the coarse check
a route makes before its handler loads anything, and `enforce` turns a denial
into an error.
-/
namespace TaskFlow
namespace Policy
open Nearest

abbrev OrgId := String
abbrev UserId := String

structure ResourceRef where
  type : ResourceType
  id : String
  deriving DecidableEq, Repr

/-- A relation of a user on an object.  Team membership is resolved already. -/
structure RelationshipTuple where
  subject : UserId
  relation : Relation
  object : ResourceRef
  deriving DecidableEq, Repr

structure Subject where
  orgId : OrgId
  userId : UserId
  role : Role
  tuples : List RelationshipTuple
  /-- The permissions granted to this member individually. -/
  memberGrants : Option (List Permission) := none
  deriving DecidableEq, Repr

structure Target where
  /-- The organization of the row, not of the request. -/
  orgId : OrgId
  resource : ResourceRef
  /-- Nearest first. -/
  ancestors : List ResourceRef := []
  /-- A role alone does not reach the resource. -/
  closed : Bool := false
  deriving DecidableEq, Repr

/-- The resource and its ancestors. -/
def Target.chain (target : Target) : List ResourceRef := target.resource :: target.ancestors

inductive StepOutcome where
  | grant
  | deny
  | skip
  | note
  deriving DecidableEq, Repr

structure TraceStep where
  layer : Nat
  outcome : StepOutcome
  rule : String
  detail : Option String := none
  deriving DecidableEq, Repr

structure Decision where
  allowed : Bool
  permission : Permission
  userId : UserId
  role : Role
  resource : Option ResourceRef
  reason : String
  trace : List TraceStep
  deriving DecidableEq, Repr

instance : ToString RelationshipTuple where
  toString tuple := "(" ++ tuple.subject ++ ", " ++ tuple.relation.text ++ ", " ++
    tuple.object.type.text ++ ":" ++ tuple.object.id ++ ")"

/-! ### Layer 2b: the role, and an individual grant on top of it -/

def hasMemberGrant (subject : Subject) (permission : Permission) : Bool :=
  permission ∈ subject.memberGrants.getD []

def grantedByMemberGrant (subject : Subject) (permission : Permission) : Bool :=
  !roleGrants subject.role permission && hasMemberGrant subject permission

def byRole (subject : Subject) (permission : Permission) : Bool :=
  roleGrants subject.role permission || grantedByMemberGrant subject permission

def roleReason (subject : Subject) (permission : Permission) : String :=
  if byRole subject permission then
    if grantedByMemberGrant subject permission then
      s!"An individual grant gives you {permission}."
    else s!"Role {subject.role} grants {permission}."
  else s!"Role {subject.role} does not grant {permission}."

def roleStep (subject : Subject) (permission : Permission) : TraceStep where
  layer := 2
  outcome := if byRole subject permission then .grant else .deny
  rule :=
    if grantedByMemberGrant subject permission then
      s!"an individual grant gives this member {permission}"
    else if byRole subject permission then s!"role={subject.role} grants {permission}"
    else s!"role={subject.role} does not grant {permission}"

/-! ### Layer 2c: the tuples -/

/-- The tuples on the first object of the chain that has any. -/
def nearestApplicable (tuples : List RelationshipTuple) (target : Target) :
    List RelationshipTuple :=
  nearest RelationshipTuple.object tuples target.chain

/-- What a layer answers, and the steps it adds to the trace. -/
structure Ruling where
  allowed : Bool
  reason : String
  steps : List TraceStep
  deriving DecidableEq, Repr

/-- No tuple is on the chain. -/
def rulingWithoutTuples (subject : Subject) (permission : Permission) (target : Target) :
    Ruling :=
  if target.closed then
    { allowed := false
      reason := "You are not a member of this resource."
      steps := [{
        layer := 2
        outcome := .deny
        rule := "resource is closed and the subject holds no relation on it"
        detail := some "membership of a private channel or DM is a tuple, not a role" }] }
  else
    { allowed := byRole subject permission
      reason := roleReason subject permission
      steps := [{
        layer := 2, outcome := .skip, rule := "no relationship tuple on this resource" }] }

/-- The nearest object has tuples, `first` and `rest`. -/
def rulingOfTuples (subject : Subject) (permission : Permission) (first : RelationshipTuple)
    (rest : List RelationshipTuple) : Ruling :=
  let byTuple := (first :: rest).filter fun tuple => relationGrants tuple.relation permission
  let granted : List TraceStep := byTuple.map fun tuple =>
    { layer := 2, outcome := .grant, rule := s!"tuple {tuple} grants {permission}" }
  -- one relation that is not restrictive lifts the cap of the others
  let capped := (first :: rest).all fun tuple => isRestrictive tuple.relation
  if capped && byTuple.length = 0 then
    if bypassesRestrictions subject.role then
      { allowed := byRole subject permission
        reason :=
          if byRole subject permission then s!"Role {subject.role} overrides a read-only grant."
          else s!"Role {subject.role} does not grant {permission}."
        steps := granted ++ [{
          layer := 2
          outcome := .note
          rule := s!"role={subject.role} bypasses restrictive grants"
          detail := some
            "an org administrator can remove the tuple anyway; recorded for audit" }] }
    else
      { allowed := false
        reason := s!"A read-only grant on this resource overrides {permission}."
        steps := granted ++ [{
          layer := 2
          outcome := .deny
          rule := s!"tuple {first} is read-only and overrides the role grant" }] }
  else if byTuple.length > 0 then
    { allowed := true, reason := "Granted by a relationship on this resource.", steps := granted }
  else
    { allowed := byRole subject permission
      reason := roleReason subject permission
      steps := granted }

/-- The answer on a target of the subject's organization. -/
def rulingOn (subject : Subject) (permission : Permission) (target : Target) : Ruling :=
  match nearestApplicable subject.tuples target with
  | [] => rulingWithoutTuples subject permission target
  | first :: rest => rulingOfTuples subject permission first rest

/-! ### The decision -/

/-- Every layer, in the order they are asked. -/
def ruling (subject : Subject) (permission : Permission) (target : Option Target) : Ruling :=
  let declared : TraceStep :=
    { layer := 1, outcome := .note, rule := s!"route declares {permission}" }
  if !isPermission permission then
    { allowed := false
      reason := "Unknown permission."
      steps := [{
        layer := 1
        outcome := .deny
        rule := "permission is not in the catalog"
        detail := some (toString permission) }] }
  else if !isRole subject.role then
    { allowed := false
      reason := "Unrecognized role."
      steps := [declared, {
        layer := 2
        outcome := .deny
        rule := "subject role is not in the catalog"
        detail := some subject.role.text }] }
  else
    match target with
    | none =>
      -- without a target the role decides alone
      { allowed := byRole subject permission
        reason := roleReason subject permission
        steps := [declared, roleStep subject permission] }
    | some target =>
      -- the boundary of the organization comes before every relation
      if target.orgId ≠ subject.orgId then
        { allowed := false
          reason := "Resource belongs to another organization."
          steps := [declared, {
            layer := 2
            outcome := .deny
            rule := "resource belongs to another organization"
            detail := some s!"subject org {subject.orgId} != resource org {target.orgId}" }] }
      else
        let last := rulingOn subject permission target
        { last with steps := declared :: roleStep subject permission :: last.steps }

/-- Decides whether the subject may perform the permission, on the target if
there is one. -/
def can (subject : Subject) (permission : Permission) (target : Option Target) : Decision :=
  let final := ruling subject permission target
  { allowed := final.allowed
    permission
    userId := subject.userId
    role := subject.role
    resource := target.map Target.resource
    reason := final.reason
    trace := final.steps }

/-- Whether the subject could be granted the permission on any object at all. -/
def couldGrant (subject : Subject) (permission : Permission) : Bool :=
  if !isRole subject.role then false
  else if roleGrants subject.role permission then true
  else if hasMemberGrant subject permission then true
  else if isOrgLevel permission then false
  else subject.tuples.any fun tuple => relationGrants tuple.relation permission

/-! ### Failures -/

inductive ErrorCode where
  | notFound
  | forbidden
  | notAMember
  | membershipSuspended
  | orgSuspended
  deriving DecidableEq, Repr

structure AppError where
  code : ErrorCode
  message : String
  deriving DecidableEq, Repr

def notFound : AppError := ⟨.notFound, "Not found."⟩

def forbidden : AppError := ⟨.forbidden, "You do not have permission to perform this action."⟩

def notAMember : AppError := ⟨.notAMember, "You are not a member of this organization."⟩

def membershipSuspended : AppError :=
  ⟨.membershipSuspended, "Your membership in this organization has been suspended."⟩

def orgSuspended : AppError := ⟨.orgSuspended, "This organization has been suspended."⟩

/-- A subject that cannot even read the resource is told that there is none. -/
def denialFor (subject : Subject) (permission : Permission) (target : Option Target) :
    AppError :=
  let readPermission : Permission := ⟨permission.resource, .read⟩
  if !isPermission readPermission then notFound
  else if (can subject readPermission target).allowed then forbidden
  else notFound

def enforce (subject : Subject) (permission : Permission) (target : Option Target) :
    Except AppError Decision :=
  let decision := can subject permission target
  if decision.allowed then .ok decision else .error (denialFor subject permission target)

/-! ### When the answer is yes -/

variable {subject : Subject} {permission : Permission} {target : Target}

theorem byRole_eq : byRole subject permission =
    (roleGrants subject.role permission || hasMemberGrant subject permission) := by
  unfold byRole grantedByMemberGrant
  cases roleGrants subject.role permission <;> simp

theorem byRole_iff : byRole subject permission = true ↔
    roleGrants subject.role permission = true ∨ hasMemberGrant subject permission = true := by
  rw [byRole_eq, Bool.or_eq_true]

/-- What the tuples of the nearest object allow. -/
def TuplesAllow (subject : Subject) (permission : Permission)
    (nearest : List RelationshipTuple) : Prop :=
  (∃ tuple ∈ nearest, relationGrants tuple.relation permission = true) ∨
    (byRole subject permission = true ∧
      (bypassesRestrictions subject.role = true ∨
        ∃ tuple ∈ nearest, isRestrictive tuple.relation = false))

theorem grants_length_eq_zero_iff {nearest : List RelationshipTuple} :
    (nearest.filter fun tuple => relationGrants tuple.relation permission).length = 0 ↔
      ¬ ∃ tuple ∈ nearest, relationGrants tuple.relation permission = true := by
  rw [List.length_eq_zero_iff, List.filter_eq_nil_iff]
  simp only [not_exists, not_and]

theorem capped_iff {nearest : List RelationshipTuple} :
    (nearest.all fun tuple => isRestrictive tuple.relation) = true ↔
      ¬ ∃ tuple ∈ nearest, isRestrictive tuple.relation = false := by
  simp only [List.all_eq_true, not_exists, not_and, Bool.not_eq_false]

theorem rulingOfTuples_allowed_iff {first : RelationshipTuple} {rest : List RelationshipTuple} :
    (rulingOfTuples subject permission first rest).allowed = true ↔
      TuplesAllow subject permission (first :: rest) := by
  unfold rulingOfTuples TuplesAllow
  simp only [apply_ite Ruling.allowed, gt_iff_lt, Nat.pos_iff_ne_zero, Bool.and_eq_true,
    decide_eq_true_eq, capped_iff, ne_eq, grants_length_eq_zero_iff]
  by_cases hgrants : ∃ tuple ∈ first :: rest, relationGrants tuple.relation permission = true
  · simp only [hgrants, not_true_eq_false, and_false, if_false, not_false_eq_true, if_true, true_or]
  by_cases hlifts : ∃ tuple ∈ first :: rest, isRestrictive tuple.relation = false
  · simp only [hgrants, hlifts, not_true_eq_false, if_false, not_false_eq_true, false_or,
      or_true, and_true]
  · cases bypassesRestrictions subject.role <;>
      simp only [hgrants, hlifts, not_false_eq_true, and_self, if_true, false_or, or_false,
        and_true, and_false, Bool.false_eq_true, if_false]

theorem rulingOn_allowed_iff : (rulingOn subject permission target).allowed = true ↔
    nearestApplicable subject.tuples target = [] ∧ target.closed = false ∧
        byRole subject permission = true ∨
      nearestApplicable subject.tuples target ≠ [] ∧
        TuplesAllow subject permission (nearestApplicable subject.tuples target) := by
  unfold rulingOn
  cases nearestApplicable subject.tuples target with
  | nil => cases hclosed : target.closed <;> simp [rulingWithoutTuples, hclosed]
  | cons first rest => simp [rulingOfTuples_allowed_iff]

/-- **When `can` allows on a target.** -/
theorem can_allowed_iff : (can subject permission (some target)).allowed = true ↔
    isPermission permission = true ∧ isRole subject.role = true ∧
      target.orgId = subject.orgId ∧
        (nearestApplicable subject.tuples target = [] ∧ target.closed = false ∧
            byRole subject permission = true ∨
          nearestApplicable subject.tuples target ≠ [] ∧
            TuplesAllow subject permission (nearestApplicable subject.tuples target)) := by
  rw [← rulingOn_allowed_iff]
  unfold can ruling
  by_cases hperm : isPermission permission = true
  swap
  · simp [hperm]
  by_cases hrole : isRole subject.role = true
  swap
  · simp [hperm, hrole]
  by_cases horg : target.orgId = subject.orgId <;> simp [hperm, hrole, horg]

/-- When `can` allows without a target. -/
theorem can_none_allowed_iff : (can subject permission none).allowed = true ↔
    isPermission permission = true ∧ isRole subject.role = true ∧
      byRole subject permission = true := by
  unfold can ruling
  by_cases hperm : isPermission permission = true
  swap
  · simp [hperm]
  by_cases hrole : isRole subject.role = true <;> simp [hperm, hrole]

theorem couldGrant_iff : couldGrant subject permission = true ↔
    isRole subject.role = true ∧ (byRole subject permission = true ∨
      isOrgLevel permission = false ∧
        ∃ tuple ∈ subject.tuples, relationGrants tuple.relation permission = true) := by
  unfold couldGrant
  rw [byRole_eq]
  cases isRole subject.role <;> cases roleGrants subject.role permission <;>
    cases hasMemberGrant subject permission <;> cases isOrgLevel permission <;> simp

end Policy
end TaskFlow
