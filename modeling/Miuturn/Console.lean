import Miuturn.Admin
import Miuturn.JavaScript

set_option autoImplicit false

/-! # Editing a user in the admin console (`static/admin.html`)

The console fills the dialog for a user from the entry of `/api/stats` (`openEditUser`), and its
button sends what the form then holds (`updateUser`). A form that nobody has typed in holds the
values that `openEditUser` gave it: a Number, or the empty text where there is none.

The three representations do not agree. The answer spells a type as Rust's `Debug` does, and the
handler knows the other spelling; a password is left out of the request to mean that it stays, and
the handler then stores the empty one; the time of expiry is in the answer and in no form. -/

open RustStd

namespace Miuturn

/-- `format!("{:?}", user_type)`. -/
def UserType.debug : UserType → String
  | .temporary => "Temporary"
  | .fixed => "Fixed"
  | .apiKey => "ApiKey"

/-- The handler takes every type of the answer for the fixed one. -/
theorem UserType.ofText_debug (t : UserType) : ofText t.debug = .fixed := by
  cases t <;> decide

namespace Console

/-- A Number of a form that a script takes for present: neither missing nor zero. -/
def truthy : Option ℕ → Option ℕ
  | some x => if x = 0 then none else some x
  | none => none

/-- `x || 10`. -/
def orTen (x : ℕ) : ℕ := if x = 0 then 10 else x

/-- `editUser`, but for the box that no handler reads; a number that is missing is an empty text
    there. -/
structure EditUser where
  username : String
  password : String
  userType : String
  maxAllocations : ℕ
  bandwidthLimit : Option ℕ
  maxAllocationDurationSecs : Option ℕ
  ipWhitelist : List Char

def openEditUser (user : UserSummary) : EditUser where
  username := user.username
  password := ""
  userType := user.userType.debug
  maxAllocations := Js.toNumber user.maxAllocations
  bandwidthLimit := truthy (user.bandwidthLimit.map Js.toNumber)
  maxAllocationDurationSecs :=
    truthy (user.maxAllocationDurationSecs.map (fun d => Js.toNumber d.toNat))
  ipWhitelist :=
    match user.ipWhitelist with
    | some entries => Js.joinComma (entries.map String.toList)
    | none => []

/-- `userData`, the request that the console writes as JSON. -/
structure UserData where
  username : String
  password : Option String
  userType : String
  maxAllocations : ℕ
  bandwidthLimit : Option ℕ
  maxAllocationDurationSecs : Option ℕ
  ipWhitelist : Option (List String)

def updateUser (form : EditUser) : UserData where
  username := form.username
  password := if form.password = "" then none else some form.password
  userType := form.userType
  maxAllocations := orTen (Js.parseInt form.maxAllocations)
  bandwidthLimit := (truthy form.bandwidthLimit).map Js.parseInt
  maxAllocationDurationSecs := (truthy form.maxAllocationDurationSecs).map Js.parseInt
  ipWhitelist :=
    if form.ipWhitelist = [] then none
    else some ((Js.splitComma form.ipWhitelist).map String.ofList)

/-- A Number of the body, read as an integer below `bound`. -/
def readNumber (bound x : ℕ) : Option ℕ :=
  if Js.printed x < bound then some (Js.printed x) else none

/-- A Number or null of the body. -/
def readOptional (bound : ℕ) : Option ℕ → Option (Option ℕ)
  | some x => (readNumber bound x).map some
  | none => some none

/-- The request that axum reads from the body, if it can; the body has no `expires_at`. -/
def UserData.read (body : UserData) : Option UpdateUserRequest := do
  let maxAllocations ← readNumber (2 ^ 32) body.maxAllocations
  let bandwidthLimit ← readOptional (2 ^ 64) body.bandwidthLimit
  let duration ← readOptional (2 ^ 32) body.maxAllocationDurationSecs
  return {
    username := body.username
    password := body.password
    userType := body.userType
    maxAllocations := some (UInt32.ofNat maxAllocations)
    expiresAt := none
    bandwidthLimit := bandwidthLimit
    ipWhitelist := body.ipWhitelist
    maxAllocationDurationSecs := duration.map UInt32.ofNat }

/-- What the console sends when the dialog for a user is saved as it opened. -/
def saveUnedited (a : Account) : Option UpdateUserRequest :=
  (updateUser (openEditUser a.summary)).read

/-! ## What reaches the handler -/

/-- The bodies that axum refuses: a number of them does not fit. -/
def Refused (a : Account) : Prop :=
  2 ^ 32 ≤ Js.roundTrip a.maxAllocations ∨ ∃ n, a.bandwidthLimit = some n ∧ 2 ^ 64 ≤ Js.roundTrip n

/-- The list of the body, from that of the user. -/
def sentWhitelist : Option (List String) → Option (List String)
  | some entries =>
    if Js.joinComma (entries.map String.toList) = [] then none
    else some ((Js.splitComma (Js.joinComma (entries.map String.toList))).map String.ofList)
  | none => none

/-- The request that is read from the body otherwise. -/
def unedited (a : Account) : UpdateUserRequest where
  username := a.username
  password := none
  userType := a.userType.debug
  maxAllocations := some (UInt32.ofNat (orTen (Js.roundTrip a.maxAllocations)))
  expiresAt := none
  bandwidthLimit := (truthy a.bandwidthLimit).map Js.roundTrip
  ipWhitelist := sentWhitelist a.ipWhitelist
  maxAllocationDurationSecs := a.maxAllocationDurationSecs.filter (fun d => d != 0)

/-- A number of the answer on its way through the form. -/
theorem truthy_form (value : Option ℕ) :
    (truthy (truthy (value.map Js.toNumber))).map Js.parseInt =
      (truthy value).map (fun n => Js.parseInt (Js.toNumber n)) := by
  cases value with
  | none => simp [truthy]
  | some n => by_cases hn : n = 0 <;> simp [truthy, Js.toNumber_eq_zero, hn]

section Reading

variable {bound : ℕ} {value : Option ℕ}

theorem readOptional_sent (h : ∀ n, value = some n → Js.roundTrip n < bound) :
    readOptional bound ((truthy value).map (fun n => Js.parseInt (Js.toNumber n))) =
      some ((truthy value).map Js.roundTrip) := by
  cases value with
  | none => rfl
  | some n =>
      have hfits : Js.printed (Js.parseInt (Js.toNumber n)) < bound := h n rfl
      by_cases hn : n = 0
      · simp [truthy, hn, readOptional]
      · simp [truthy, hn, readOptional, readNumber, hfits, Js.roundTrip]

theorem readOptional_refused {n : ℕ} (hn : 0 < n) (h : bound ≤ Js.roundTrip n) :
    readOptional bound ((truthy (some n)).map (fun n => Js.parseInt (Js.toNumber n))) = none := by
  have hlarge : ¬ Js.printed (Js.parseInt (Js.toNumber n)) < bound := Nat.not_lt.mpr h
  simp [truthy, hn.ne', readOptional, readNumber, hlarge]

end Reading

theorem readNumber_maxAllocations (n : ℕ) :
    readNumber (2 ^ 32) (orTen (Js.parseInt (Js.toNumber n))) =
      if 2 ^ 32 ≤ Js.roundTrip n then none else some (orTen (Js.roundTrip n)) := by
  have hten : Js.printed 10 = 10 := Js.printed_of_lt (by norm_num)
  by_cases hzero : Js.parseInt (Js.toNumber n) = 0
  · have htrip : Js.roundTrip n = 0 := Js.printed_eq_zero.mpr hzero
    simp [readNumber, orTen, hzero, hten, htrip]
  · have htrip : Js.roundTrip n ≠ 0 := fun h => hzero (Js.printed_eq_zero.mp h)
    rw [orTen, if_neg hzero, orTen, if_neg htrip, readNumber]
    by_cases hfits : Js.roundTrip n < 2 ^ 32
    · rw [if_neg (Nat.not_le.mpr hfits)]
      exact if_pos hfits
    · rw [if_pos (Nat.not_lt.mp hfits)]
      exact if_neg hfits

/-- No number is lost among those that fit into 32 bits. -/
theorem roundTrip_toNat (d : UInt32) : Js.roundTrip d.toNat = d.toNat :=
  Js.roundTrip_of_lt (d.toNat_lt.trans (by norm_num))

theorem read_duration (duration : Option UInt32) :
    ((truthy (duration.map UInt32.toNat)).map Js.roundTrip).map UInt32.ofNat =
      duration.filter (fun d => d != 0) := by
  cases duration with
  | none => rfl
  | some d =>
      by_cases hd : d = 0
      · subst hd
        rfl
      · have hnat : d.toNat ≠ 0 := fun h => hd (UInt32.toNat_inj.mp h)
        simp [truthy, Option.filter, hnat, hd, roundTrip_toNat]

section Body

variable (a : Account)

/-- The numbers of the body, from those of the user. -/
theorem updateUser_bandwidthLimit :
    (updateUser (openEditUser a.summary)).bandwidthLimit =
      (truthy a.bandwidthLimit).map (fun n => Js.parseInt (Js.toNumber n)) :=
  truthy_form a.bandwidthLimit

theorem updateUser_duration :
    (updateUser (openEditUser a.summary)).maxAllocationDurationSecs =
      (truthy (a.maxAllocationDurationSecs.map UInt32.toNat)).map
        (fun n => Js.parseInt (Js.toNumber n)) := by
  rw [← truthy_form, Option.map_map]
  rfl

theorem updateUser_ipWhitelist :
    (updateUser (openEditUser a.summary)).ipWhitelist = (unedited a).ipWhitelist := by
  unfold updateUser openEditUser unedited Account.summary
  cases a.ipWhitelist with
  | none => rfl
  | some entries => rfl

/-- A body is read exactly when its numbers fit. -/
theorem saveUnedited_eq :
    saveUnedited a =
      if 2 ^ 32 ≤ Js.roundTrip a.maxAllocations then none
      else (readOptional (2 ^ 64)
        ((truthy a.bandwidthLimit).map (fun n => Js.parseInt (Js.toNumber n)))).map
          (fun bandwidthLimit => { unedited a with bandwidthLimit := bandwidthLimit }) := by
  have hduration : ∀ n, a.maxAllocationDurationSecs.map UInt32.toNat = some n →
      Js.roundTrip n < 2 ^ 32 := by
    intro n hn
    obtain ⟨d, -, rfl⟩ := Option.map_eq_some_iff.mp hn
    rw [roundTrip_toNat]
    exact d.toNat_lt
  rw [saveUnedited, UserData.read, updateUser_bandwidthLimit, updateUser_duration,
    readOptional_sent hduration, updateUser_ipWhitelist]
  have hbody : (updateUser (openEditUser a.summary)).maxAllocations =
      orTen (Js.parseInt (Js.toNumber a.maxAllocations)) := by
    rw [updateUser, openEditUser, Account.summary]
  rw [hbody, readNumber_maxAllocations]
  split
  · rfl
  · cases readOptional (2 ^ 64)
        ((truthy a.bandwidthLimit).map (fun n => Js.parseInt (Js.toNumber n))) with
    | none => rfl
    | some bandwidthLimit =>
        have hread := read_duration a.maxAllocationDurationSecs
        simp only [Option.bind_eq_bind, Option.bind_some, hread]
        rfl

theorem saveUnedited_of_not_refused (h : ¬ Refused a) : saveUnedited a = some (unedited a) := by
  obtain ⟨hmax, hbandwidth⟩ := not_or.mp h
  have hbound : ∀ n, a.bandwidthLimit = some n → Js.roundTrip n < 2 ^ 64 := by
    intro n hn
    exact Nat.not_le.mp (fun hle => hbandwidth ⟨n, hn, hle⟩)
  rw [saveUnedited_eq, if_neg hmax, readOptional_sent hbound]
  rfl

theorem saveUnedited_of_refused (h : Refused a) : saveUnedited a = none := by
  rw [saveUnedited_eq]
  rcases h with hmax | ⟨n, hn, hlarge⟩
  · rw [if_pos hmax]
  · have hpos : 0 < n := by
      rcases Nat.eq_zero_or_pos n with rfl | hpos
      · rw [Js.roundTrip_of_lt (Nat.two_pow_pos 53)] at hlarge
        omega
      · exact hpos
    rw [hn, readOptional_refused hpos hlarge]
    split <;> rfl

end Body

/-! ## What the handler makes of it -/

/-- Two versions of a user that differ in nothing but the number of allocations and the time at
    which they were made. -/
structure SameSettings (a b : Account) : Prop where
  password : b.password = a.password
  userType : b.userType = a.userType
  expiresAt : b.expiresAt = a.expiresAt
  bandwidthLimit : b.bandwidthLimit = a.bandwidthLimit
  ipWhitelist : b.ipWhitelist = a.ipWhitelist
  maxAllocationDurationSecs : b.maxAllocationDurationSecs = a.maxAllocationDurationSecs

/-- The user is stored before and after, with the same settings. -/
def KeepsUser (s s' : Accounts) (username : String) : Prop :=
  ∃ a b, s.users.lookup username = some a ∧ s'.users.lookup username = some b ∧ SameSettings a b

/-- The users that the form can hold: no password, no time of expiry, the one type that the handler
    reads from the answer, and values that are not lost on the way. -/
structure Restorable (a : Account) : Prop where
  password : a.password = ""
  userType : a.userType = .fixed
  expiresAt : a.expiresAt = none
  bandwidthLimit : ∀ n, a.bandwidthLimit = some n → n ≠ 0 ∧ Js.roundTrip n = n
  ipWhitelist : ∀ entries, a.ipWhitelist = some entries →
    entries ≠ [] ∧ ∀ entry ∈ entries, Js.Separable entry.toList
  maxAllocationDurationSecs : a.maxAllocationDurationSecs ≠ some 0

theorem bandwidthLimit_kept_iff (value : Option ℕ) :
    (truthy value).map Js.roundTrip = value ↔ ∀ n, value = some n → n ≠ 0 ∧ Js.roundTrip n = n := by
  cases value with
  | none => simp [truthy]
  | some n => by_cases hn : n = 0 <;> simp [truthy, hn]

theorem duration_kept_iff (value : Option UInt32) :
    value.filter (fun d => d != 0) = value ↔ value ≠ some 0 := by
  cases value with
  | none => simp
  | some d => by_cases hd : d = 0 <;> simp [Option.filter, hd]

theorem map_ofList_eq_iff (texts : List (List Char)) (entries : List String) :
    texts.map String.ofList = entries ↔ texts = entries.map String.toList := by
  constructor
  · rintro rfl
    simp
  · rintro rfl
    simp

theorem ipWhitelist_kept_iff (value : Option (List String)) :
    sentWhitelist value = value ↔
      ∀ entries, value = some entries →
        entries ≠ [] ∧ ∀ entry ∈ entries, Js.Separable entry.toList := by
  cases value with
  | none => simp [sentWhitelist]
  | some entries =>
      have hsep : (∀ text ∈ entries.map String.toList, Js.Separable text) ↔
          ∀ entry ∈ entries, Js.Separable entry.toList := List.forall_mem_map
      simp only [Option.some.injEq, forall_eq', ← hsep, sentWhitelist]
      constructor
      · intro h
        split at h
        · cases h
        · rename_i hjoin
          have hne : entries ≠ [] := by
            rintro rfl
            exact hjoin rfl
          have hback := (map_ofList_eq_iff _ _).mp (Option.some.inj h)
          exact ⟨hne, (Js.splitComma_joinComma_iff (by simpa using hne)).mp hback⟩
      · rintro ⟨hne, hall⟩
        have hback := Js.splitComma_joinComma (by simpa using hne) hall
        rw [if_neg]
        · rw [(map_ofList_eq_iff _ _).mpr hback]
        · intro hjoin
          rw [hjoin] at hback
          exact hne (List.map_eq_nil_iff.mp hback.symm)

theorem sameSettings_unedited_iff (now : ℕ) (a : Account) :
    SameSettings a ((unedited a).account now) ↔ Restorable a := by
  constructor
  · intro h
    exact {
      password := h.password.symm
      userType := by rw [← h.userType]; exact UserType.ofText_debug _
      expiresAt := h.expiresAt.symm
      bandwidthLimit := (bandwidthLimit_kept_iff _).mp h.bandwidthLimit
      ipWhitelist := (ipWhitelist_kept_iff _).mp h.ipWhitelist
      maxAllocationDurationSecs := (duration_kept_iff _).mp h.maxAllocationDurationSecs }
  · intro h
    exact {
      password := h.password.symm
      userType := by rw [h.userType]; exact UserType.ofText_debug _
      expiresAt := h.expiresAt.symm
      bandwidthLimit := (bandwidthLimit_kept_iff _).mpr h.bandwidthLimit
      ipWhitelist := (ipWhitelist_kept_iff _).mpr h.ipWhitelist
      maxAllocationDurationSecs := (duration_kept_iff _).mpr h.maxAllocationDurationSecs }

theorem lookup_apply_updateUser (now : ℕ) (s : Accounts) (req : UpdateUserRequest) :
    ((AdminEdit.updateUser req).apply now s).users.lookup req.username =
      some (req.account now) :=
  HashMap.lookup_insert_eq_some.mpr (.inl ⟨rfl, rfl⟩)

/-- Saving a user that was not edited, if the request is read at all, changes nothing exactly when
    the form can hold the user. -/
theorem unedited_save_iff (now : ℕ) (s : Accounts) (a : Account)
    (ha : s.users.lookup a.username = some a) :
    (∀ req, saveUnedited a = some req →
      KeepsUser s ((AdminEdit.updateUser req).apply now s) a.username) ↔
      Refused a ∨ Restorable a := by
  by_cases hrefused : Refused a
  · simp [saveUnedited_of_refused a hrefused, hrefused]
  · have hafter := lookup_apply_updateUser now s (unedited a)
    rw [saveUnedited_of_not_refused a hrefused]
    constructor
    · intro h
      obtain ⟨a', b, ha', hb, hsame⟩ := h _ rfl
      cases ha.symm.trans ha'
      cases hafter.symm.trans hb
      exact .inr ((sameSettings_unedited_iff now a).mp hsame)
    · rintro (h | h) req hreq
      · exact absurd h hrefused
      · cases hreq
        exact ⟨a, _, ha, hafter, (sameSettings_unedited_iff now a).mpr h⟩

/-- A user without a password, with limits that the form can hold. -/
def openUser : Account where
  username := "guest"
  password := ""
  expiresAt := none
  userType := .fixed
  createdAt := 100
  maxAllocations := 5
  bandwidthLimit := some 1048576
  ipWhitelist := some ["192.168.1.1", "10.0.0.0/8"]
  maxAllocationDurationSecs := some 600

/-- The request is read, and changes nothing. -/
theorem unedited_save_openUser :
    saveUnedited openUser = some (unedited openUser) ∧
      KeepsUser (Accounts.new.addUser openUser)
        ((AdminEdit.updateUser (unedited openUser)).apply 200 (Accounts.new.addUser openUser))
        "guest" := by
  have hread : saveUnedited openUser = some (unedited openUser) := by decide +kernel
  have hseparable : ∀ entry ∈ ["192.168.1.1", "10.0.0.0/8"], Js.Separable entry.toList := by
    unfold Js.Separable
    decide +kernel
  have hrestorable : Restorable openUser := {
    password := rfl
    userType := rfl
    expiresAt := rfl
    bandwidthLimit := by
      rintro n ⟨⟩
      exact ⟨by decide, Js.roundTrip_of_lt (by norm_num)⟩
    ipWhitelist := by
      rintro entries ⟨⟩
      exact ⟨by decide, hseparable⟩
    maxAllocationDurationSecs := by decide }
  have hkeeps := (unedited_save_iff 200 (Accounts.new.addUser openUser) openUser
    (by decide +kernel)).mpr (.inr hrestorable)
  exact ⟨hread, hkeeps _ hread⟩

/-- A temporary user, with a password and a time of expiry. -/
def temporaryUser : Account where
  username := "alice"
  password := "secret"
  expiresAt := some 5000
  userType := .temporary
  createdAt := 100
  maxAllocations := 5
  bandwidthLimit := some 1048576
  ipWhitelist := some ["192.168.1.1"]
  maxAllocationDurationSecs := some 600

/-- Saved unedited, the user has the empty password, no time of expiry and another type. -/
theorem unedited_save_clears :
    (Accounts.new.addUser temporaryUser).users.lookup "alice" = some temporaryUser ∧
      ∃ req, saveUnedited temporaryUser = some req ∧
        ((AdminEdit.updateUser req).apply 200 (Accounts.new.addUser temporaryUser)).users.lookup
            "alice" =
          some { temporaryUser with
            password := "", expiresAt := none, userType := .fixed, createdAt := 200 } ∧
        ¬ KeepsUser (Accounts.new.addUser temporaryUser)
          ((AdminEdit.updateUser req).apply 200 (Accounts.new.addUser temporaryUser)) "alice" := by
  have hstored :
      (Accounts.new.addUser temporaryUser).users.lookup "alice" = some temporaryUser := by
    decide +kernel
  have hafter : ((AdminEdit.updateUser (unedited temporaryUser)).apply 200
      (Accounts.new.addUser temporaryUser)).users.lookup "alice" =
        some { temporaryUser with
          password := "", expiresAt := none, userType := .fixed, createdAt := 200 } := by
    decide +kernel
  have hread : saveUnedited temporaryUser = some (unedited temporaryUser) := by decide +kernel
  refine ⟨hstored, unedited temporaryUser, hread, hafter, ?_⟩
  rintro ⟨a, b, ha, hb, hsame⟩
  cases hstored.symm.trans ha
  cases hafter.symm.trans hb
  exact absurd hsame.password (by decide)

end Console

end Miuturn
