import Miuturn.RustStd.HashMap
import Miuturn.RustStd.Utf8
import Mathlib.Data.List.Sort

set_option autoImplicit false

/-! # Users and access rules (`auth.rs`)

The `AuthManager` holds the users with their passwords and expiry, and the access rules by address
range. `SystemTime` readings are seconds since the epoch here; the fields of a user that no modelled
operation reads (its type, quotas and whitelist) are left out. -/

open RustStd

namespace Miuturn

structure User where
  username : String
  password : String
  expiresAt : Option ℕ
  deriving DecidableEq

inductive AclAction where
  | allow
  | deny
  deriving DecidableEq

structure AclRule where
  ipRange : String
  action : AclAction
  priority : UInt32
  deriving DecidableEq

structure AuthManager where
  users : HashMap String User
  aclRules : List AclRule
  deriving DecidableEq

namespace AuthManager

/-- `AuthManager::new`. -/
def new : AuthManager := ⟨∅, []⟩

/-! ## Access rules -/

/-- The four numbers of a dotted quad as one word; a part that is not a `u8` counts as zero. -/
def quadToWord (parts : List (List Char)) : Option UInt32 :=
  match parts.map (fun p => UInt32.ofNat ((parseUnsigned 255 p).getD 0)) with
  | [a, b, c, d] => some ((a <<< 24) ||| (b <<< 16) ||| (c <<< 8) ||| d)
  | _ => none

/-- `AuthManager::ip_matches_subnet`. -/
def ipMatchesSubnet (ip base : List Char) (mask : ℕ) : Bool :=
  if mask = 0 then true
  else
    match quadToWord (ip.splitOn '.'), quadToWord (base.splitOn '.') with
    | some ipInt, some baseInt =>
      let maskInt : UInt32 :=
        if mask ≥ 32 then 0xFFFFFFFF else ~~~((1 <<< UInt32.ofNat (32 - mask)) - 1)
      ipInt &&& maskInt == baseInt &&& maskInt
    | _, _ => false

/-- `AuthManager::ip_in_range`. -/
def ipInRange (ip range : String) : Bool :=
  if range.toList.contains '/' then
    match range.toList.splitOn '/' with
    | [baseIp, mask] => ipMatchesSubnet ip.toList baseIp ((parseUnsigned 4294967295 mask).getD 32)
    | _ => false
  else ip == range

/-- `AuthManager::check_acl`: the first rule whose range holds the address decides. -/
def checkAcl (am : AuthManager) (ip : String) : Bool :=
  match am.aclRules.find? (fun rule => ipInRange ip rule.ipRange) with
  | some rule => rule.action == .allow
  | none => true

/-- `AuthManager::add_acl_rule`: append, then sort stably by descending priority. -/
def addAclRule (am : AuthManager) (rule : AclRule) : AuthManager :=
  { am with aclRules :=
      (am.aclRules ++ [rule]).insertionSort (fun a b => b.priority.toNat ≤ a.priority.toNat) }

/-- `AuthManager::remove_acl_rule`. -/
def removeAclRule (am : AuthManager) (ipRange : String) (priority : UInt32) : AuthManager :=
  { am with aclRules :=
      am.aclRules.filter (fun r => !(r.ipRange == ipRange && r.priority == priority)) }

/-! ## Users -/

/-- `AuthManager::add_user`. -/
def addUser (am : AuthManager) (user : User) : AuthManager :=
  { am with users := am.users.insert user.username user }

/-- `AuthManager::remove_user`. -/
def removeUser (am : AuthManager) (username : String) : AuthManager :=
  { am with users := am.users.erase username }

/-- `AuthManager::get_user_password`, at `now` seconds since the epoch. -/
def getUserPassword (am : AuthManager) (now : ℕ) (username : String) : Option String :=
  match am.users.lookup username with
  | none => none
  | some user =>
    match user.expiresAt with
    | some expires => if now > expires then none else some user.password
    | none => some user.password

/-- A password is handed out exactly for the users of the table that have not expired. -/
theorem getUserPassword_eq_some {am : AuthManager} {now : ℕ} {username password : String} :
    am.getUserPassword now username = some password ↔
      ∃ user, am.users.lookup username = some user ∧ (∀ t, user.expiresAt = some t → now ≤ t) ∧
        user.password = password := by
  unfold getUserPassword
  cases hlookup : am.users.lookup username with
  | none => simp
  | some user =>
      cases hexp : user.expiresAt with
      | none => simp [hexp]
      | some t =>
          by_cases ht : now > t
          · simp [ht, hexp, not_le.2 ht]
          · simp [ht, hexp, not_lt.1 ht]

end AuthManager

end Miuturn
