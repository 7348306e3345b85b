import Mathlib.Data.List.Basic
import Mathlib.Data.String.Basic

/-! # Permissions, roles and relations

The closed catalog of permissions, what each organization role grants of it and
what each relation grants on the object it points at.  Values from outside of
the system may name a resource, an action or a role this build does not know:
those are the `other`s.
-/
namespace TaskFlow
namespace Policy

/-- What a permission acts on: `RESOURCE_TYPES`, then the resources of a
permission that no relation can point at. -/
inductive ResourceType where
  | org
  | member
  | team
  | project
  | board
  | card
  | channel
  | message
  | space
  | page
  | comment
  | attachment
  | automation
  | webhook
  | integration
  | phoneNumber
  | call
  | sms
  | recording
  | audit
  | apiToken
  | search
  | analytics
  | ai
  | pr
  | repo
  /-- Any other text. -/
  | other (text : String)
  deriving DecidableEq, Repr

inductive Action where
  | read
  | update
  | delete
  | billing
  | invite
  | manage
  | remove
  | create
  | move
  | upload
  | download
  | revoke
  | purchase
  | release
  | place
  | send
  | export
  | query
  | use
  | view
  | review
  | merge
  | connect
  /-- Any other text. -/
  | other (text : String)
  deriving DecidableEq, Repr

/-- A text `<resource>:<action>`. -/
structure Permission where
  resource : ResourceType
  action : Action
  deriving DecidableEq, Repr

def ResourceType.text : ResourceType → String
  | .org => "org"
  | .member => "member"
  | .team => "team"
  | .project => "project"
  | .board => "board"
  | .card => "card"
  | .channel => "channel"
  | .message => "message"
  | .space => "space"
  | .page => "page"
  | .comment => "comment"
  | .attachment => "attachment"
  | .automation => "automation"
  | .webhook => "webhook"
  | .integration => "integration"
  | .phoneNumber => "phoneNumber"
  | .call => "call"
  | .sms => "sms"
  | .recording => "recording"
  | .audit => "audit"
  | .apiToken => "apiToken"
  | .search => "search"
  | .analytics => "analytics"
  | .ai => "ai"
  | .pr => "pr"
  | .repo => "repo"
  | .other text => text

def Action.text : Action → String
  | .read => "read"
  | .update => "update"
  | .delete => "delete"
  | .billing => "billing"
  | .invite => "invite"
  | .manage => "manage"
  | .remove => "remove"
  | .create => "create"
  | .move => "move"
  | .upload => "upload"
  | .download => "download"
  | .revoke => "revoke"
  | .purchase => "purchase"
  | .release => "release"
  | .place => "place"
  | .send => "send"
  | .export => "export"
  | .query => "query"
  | .use => "use"
  | .view => "view"
  | .review => "review"
  | .merge => "merge"
  | .connect => "connect"
  | .other text => text

instance : ToString Permission where
  toString permission := permission.resource.text ++ ":" ++ permission.action.text

/-! ### The catalog -/

/-- `PERMISSIONS`. -/
def permissions : List Permission := [
    ⟨.org, .read⟩, ⟨.org, .update⟩, ⟨.org, .delete⟩, ⟨.org, .billing⟩,
    ⟨.member, .read⟩, ⟨.member, .invite⟩, ⟨.member, .manage⟩, ⟨.member, .remove⟩,
    ⟨.team, .read⟩, ⟨.team, .manage⟩,
    ⟨.project, .read⟩, ⟨.project, .create⟩, ⟨.project, .update⟩, ⟨.project, .delete⟩,
    ⟨.board, .read⟩, ⟨.board, .create⟩, ⟨.board, .update⟩, ⟨.board, .delete⟩,
    ⟨.card, .read⟩, ⟨.card, .create⟩, ⟨.card, .update⟩, ⟨.card, .move⟩, ⟨.card, .delete⟩,
    ⟨.channel, .read⟩, ⟨.channel, .create⟩, ⟨.channel, .manage⟩,
    ⟨.message, .read⟩, ⟨.message, .create⟩, ⟨.message, .update⟩, ⟨.message, .delete⟩,
    ⟨.space, .read⟩, ⟨.space, .create⟩, ⟨.space, .manage⟩,
    ⟨.page, .read⟩, ⟨.page, .create⟩, ⟨.page, .update⟩, ⟨.page, .delete⟩,
    ⟨.comment, .create⟩, ⟨.comment, .delete⟩, ⟨.attachment, .upload⟩, ⟨.attachment, .download⟩,
    ⟨.automation, .manage⟩, ⟨.webhook, .manage⟩, ⟨.integration, .manage⟩,
    ⟨.apiToken, .create⟩, ⟨.apiToken, .revoke⟩,
    ⟨.phoneNumber, .read⟩, ⟨.phoneNumber, .purchase⟩, ⟨.phoneNumber, .release⟩,
    ⟨.call, .place⟩, ⟨.call, .read⟩, ⟨.sms, .send⟩, ⟨.sms, .read⟩,
    ⟨.recording, .read⟩, ⟨.recording, .export⟩, ⟨.audit, .read⟩, ⟨.audit, .export⟩,
    ⟨.search, .query⟩, ⟨.search, .manage⟩, ⟨.analytics, .read⟩, ⟨.ai, .use⟩,
    ⟨.pr, .view⟩, ⟨.pr, .review⟩, ⟨.pr, .merge⟩, ⟨.repo, .connect⟩]

/-- `ORG_LEVEL_PERMISSIONS`: nothing a relation points at is behind them. -/
def orgLevelPermissions : List Permission := [
    ⟨.org, .read⟩, ⟨.org, .update⟩, ⟨.org, .delete⟩, ⟨.org, .billing⟩,
    ⟨.member, .read⟩, ⟨.member, .invite⟩, ⟨.member, .manage⟩, ⟨.member, .remove⟩,
    ⟨.team, .read⟩, ⟨.team, .manage⟩, ⟨.audit, .read⟩, ⟨.analytics, .read⟩,
    ⟨.apiToken, .create⟩, ⟨.apiToken, .revoke⟩, ⟨.automation, .manage⟩, ⟨.webhook, .manage⟩,
    ⟨.integration, .manage⟩,
    ⟨.phoneNumber, .read⟩, ⟨.phoneNumber, .purchase⟩, ⟨.phoneNumber, .release⟩,
    ⟨.call, .read⟩, ⟨.call, .place⟩, ⟨.sms, .read⟩, ⟨.sms, .send⟩,
    ⟨.recording, .read⟩, ⟨.recording, .export⟩, ⟨.ai, .use⟩,
    ⟨.pr, .view⟩, ⟨.pr, .review⟩, ⟨.pr, .merge⟩, ⟨.repo, .connect⟩]

/-- `GRANTABLE_PERMISSIONS`: what one member may be given individually. -/
def grantablePermissions : List Permission := [
    ⟨.phoneNumber, .read⟩, ⟨.call, .place⟩, ⟨.call, .read⟩, ⟨.sms, .send⟩, ⟨.sms, .read⟩,
    ⟨.automation, .manage⟩, ⟨.webhook, .manage⟩, ⟨.integration, .manage⟩,
    ⟨.apiToken, .create⟩, ⟨.apiToken, .revoke⟩, ⟨.ai, .use⟩,
    ⟨.pr, .view⟩, ⟨.pr, .review⟩, ⟨.pr, .merge⟩, ⟨.repo, .connect⟩]

def isPermission (permission : Permission) : Bool := permission ∈ permissions

def isOrgLevel (permission : Permission) : Bool := permission ∈ orgLevelPermissions

def isGrantable (permission : Permission) : Bool := permission ∈ grantablePermissions

/-! ### Roles -/

inductive Role where
  | owner
  | admin
  | member
  | guest
  /-- A role this build has never heard of. -/
  | other (text : String)
  deriving DecidableEq, Repr

def Role.text : Role → String
  | .owner => "owner"
  | .admin => "admin"
  | .member => "member"
  | .guest => "guest"
  | .other text => text

instance : ToString Role := ⟨Role.text⟩

def isRole : Role → Bool
  | .other _ => false
  | _ => true

def adminPermissions : List Permission := [
    ⟨.org, .read⟩, ⟨.member, .read⟩, ⟨.member, .invite⟩, ⟨.team, .read⟩, ⟨.team, .manage⟩,
    ⟨.project, .read⟩, ⟨.project, .create⟩, ⟨.project, .update⟩, ⟨.project, .delete⟩,
    ⟨.board, .read⟩, ⟨.board, .create⟩, ⟨.board, .update⟩, ⟨.board, .delete⟩,
    ⟨.card, .read⟩, ⟨.card, .create⟩, ⟨.card, .update⟩, ⟨.card, .move⟩, ⟨.card, .delete⟩,
    ⟨.channel, .read⟩, ⟨.channel, .create⟩, ⟨.channel, .manage⟩,
    ⟨.message, .read⟩, ⟨.message, .create⟩, ⟨.message, .update⟩, ⟨.message, .delete⟩,
    ⟨.space, .read⟩, ⟨.space, .create⟩, ⟨.space, .manage⟩,
    ⟨.page, .read⟩, ⟨.page, .create⟩, ⟨.page, .update⟩, ⟨.page, .delete⟩,
    ⟨.comment, .create⟩, ⟨.comment, .delete⟩, ⟨.attachment, .upload⟩, ⟨.attachment, .download⟩,
    ⟨.automation, .manage⟩, ⟨.webhook, .manage⟩, ⟨.integration, .manage⟩,
    ⟨.apiToken, .create⟩, ⟨.apiToken, .revoke⟩, ⟨.phoneNumber, .read⟩,
    ⟨.call, .place⟩, ⟨.call, .read⟩, ⟨.sms, .send⟩, ⟨.sms, .read⟩, ⟨.recording, .read⟩,
    ⟨.audit, .read⟩, ⟨.search, .query⟩, ⟨.search, .manage⟩, ⟨.analytics, .read⟩, ⟨.ai, .use⟩,
    ⟨.pr, .view⟩, ⟨.pr, .review⟩, ⟨.pr, .merge⟩, ⟨.repo, .connect⟩]

def memberPermissions : List Permission := [
    ⟨.org, .read⟩, ⟨.member, .read⟩, ⟨.team, .read⟩, ⟨.project, .read⟩, ⟨.board, .read⟩,
    ⟨.card, .read⟩, ⟨.card, .create⟩, ⟨.card, .update⟩, ⟨.card, .move⟩, ⟨.card, .delete⟩,
    ⟨.channel, .read⟩, ⟨.message, .read⟩, ⟨.message, .create⟩, ⟨.message, .update⟩,
    ⟨.space, .read⟩, ⟨.page, .read⟩, ⟨.page, .create⟩, ⟨.page, .update⟩, ⟨.comment, .create⟩,
    ⟨.attachment, .upload⟩, ⟨.attachment, .download⟩, ⟨.search, .query⟩]

/-- `ROLE_PERMISSIONS`.  A guest has nothing from the role, an unknown role is
not in the table. -/
def rolePermissions : Role → List Permission
  | .owner => permissions
  | .admin => adminPermissions
  | .member => memberPermissions
  | .guest | .other _ => []

def roleGrants (role : Role) (permission : Permission) : Bool := permission ∈ rolePermissions role

def bypassesRestrictions (role : Role) : Bool := role = .owner ∨ role = .admin

/-! ### Relations -/

inductive Relation where
  | owner
  | editor
  | commenter
  | viewer
  | member
  deriving DecidableEq, Repr

def Relation.text : Relation → String
  | .owner => "owner"
  | .editor => "editor"
  | .commenter => "commenter"
  | .viewer => "viewer"
  | .member => "member"

/-- What a relation gives on its object and everything beneath. -/
structure RelationGrant where
  actions : List Action
  /-- Permissions granted outright. -/
  extra : List Permission
  /-- The relation caps the subject instead of adding to their role. -/
  restrictive : Bool

/-- `RELATION_GRANTS`. -/
def relationGrant : Relation → RelationGrant
  | .viewer => { actions := [.read, .download], extra := [], restrictive := true }
  | .commenter =>
    { actions := [.read, .download], extra := [⟨.comment, .create⟩], restrictive := true }
  | .member =>
    { actions := [.read, .download]
      extra := [⟨.message, .create⟩, ⟨.message, .update⟩, ⟨.comment, .create⟩,
        ⟨.attachment, .upload⟩]
      restrictive := true }
  | .editor =>
    { actions := [.read, .download, .create, .update, .move]
      extra := [⟨.comment, .create⟩, ⟨.attachment, .upload⟩]
      restrictive := false }
  | .owner =>
    { actions := [.read, .download, .create, .update, .move, .delete, .manage]
      extra := [⟨.comment, .create⟩, ⟨.attachment, .upload⟩]
      restrictive := false }

/-- `GRANTED_BY_RELATION`. -/
def grantSet (relation : Relation) : List Permission :=
  permissions.filter fun permission =>
    permission.action ∈ (relationGrant relation).actions ∨
      permission ∈ (relationGrant relation).extra

def relationGrants (relation : Relation) (permission : Permission) : Bool :=
  permission ∈ grantSet relation

def isRestrictive (relation : Relation) : Bool := (relationGrant relation).restrictive

/-! ### The tables stay inside of the catalog -/

variable {permission : Permission} {role : Role} {relation : Relation}

theorem relationGrants_iff :
    relationGrants relation permission = true ↔ isPermission permission = true ∧
      (permission.action ∈ (relationGrant relation).actions ∨
        permission ∈ (relationGrant relation).extra) := by
  simp [relationGrants, grantSet, isPermission]

/-- Every relation lets its holder read whatever has a permission to read. -/
theorem relationGrants_read (relation : Relation) (h : isPermission permission = true)
    (hread : permission.action = .read) : relationGrants relation permission = true := by
  refine relationGrants_iff.mpr ⟨h, Or.inl ?_⟩
  rw [hread]
  cases relation <;> decide

end Policy
end TaskFlow
