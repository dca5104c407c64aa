/-
# NestAmqp.Acl.AuthMatch — grants, the resource a request targets, and when the two match.

`grantMatchesResource` is the exact-match rule of the access control: both ids must be equal after
`norm`, which sends the three spellings of an absent id to one.  Ids are raw values here, because the
gateway hands over whatever the request carried.
-/
import NestAmqp.Js.Value

namespace NestAmqp.Acl

open NestAmqp.Js

/-- `AclAction`: the name is the identity. -/
structure AclAction where
  name : String
  description : Value := .undefined

/-- `AclRole`: the name is the identity. -/
structure AclRole where
  name : String
  description : Value := .undefined
  actions : List String

/-- `AclGrant`; the record id, generic in the source, is a number here. -/
structure AclGrant where
  _id : Nat
  userId : String
  resourceId : Value := .undefined
  companyId : Value := .undefined
  friendlyName : Value := .undefined
  roles : List String

/-- The `(companyId, resourceId)` a request targets; both optional. -/
structure AclResourceContext where
  companyId : Value := .undefined
  resourceId : Value := .undefined

/-- Absent and empty ids (`undefined`, `null`, `''`) all become `none`, so they compare equal. -/
def norm : Value → Option String
  | .undefined => none
  | .null => none
  | .str "" => none
  | v => some v.toStr

@[simp] theorem norm_undefined : norm .undefined = none := rfl

@[simp] theorem norm_str (s : String) : norm (.str s) = if s = "" then none else some s := by
  by_cases h : s = ""
  · subst h; rfl
  · simp only [h, if_false]
    unfold norm
    split <;> simp_all [Value.toStr]

theorem norm_of_nullish {v : Value} (h : v.nullish = true) : norm v = none := by
  rcases (Value.nullish_iff v).mp h with rfl | rfl <;> rfl

/-- A target: the two ids of a context after normalisation. -/
abbrev Target := Option String × Option String

/-- The normalised target of a context. -/
def AclResourceContext.target (ctx : AclResourceContext) : Target :=
  (norm ctx.companyId, norm ctx.resourceId)

/-- The normalised target of a grant record. -/
def AclGrant.target (grant : AclGrant) : Target := (norm grant.companyId, norm grant.resourceId)

/-- Exact match, no wildcard: a missing context reads as both ids absent. -/
def grantMatchesResource (grant : AclGrant) (ctx : Option AclResourceContext) : Bool :=
  let ctx := ctx.getD {}
  norm grant.companyId == norm ctx.companyId && norm grant.resourceId == norm ctx.resourceId

@[simp] theorem grantMatchesResource_iff (grant : AclGrant) (ctx : AclResourceContext) :
    grantMatchesResource grant (some ctx) = true ↔ grant.target = ctx.target := by
  simp [grantMatchesResource, AclGrant.target, AclResourceContext.target]

end NestAmqp.Acl
