import Miuturn.Sessions
import Miuturn.StableSort

set_option autoImplicit false

/-! # The saved configuration

After every edit `save_config` reads the configuration file again, replaces the users and the access
rules by those of the running manager, and writes the file. What the next start makes of the file is
the running state, but for two things: the users of the API keys come back as they were first made,
over whatever the running manager has under their names; and of a file that the reader does not
take, or that has entries the reader does not know, the rest is lost.

The `toml` crate is given by what it does with texts (`Toml`). It is assumed to read back what it
has printed, with the API keys in any order, since they are a hash map. -/

open RustStd

namespace Miuturn

/-! ## Texts and configurations -/

structure Toml where
  /-- `toml::from_str`. -/
  fromStr : String → Option Config
  /-- `toml::to_string_pretty`, which refuses what TOML cannot say. -/
  toStringPretty : Config → Option String
  /-- The entries of a text that `Config` has no field for. -/
  unknown : String → List String

/-- The same configuration, but for the users and the access rules. -/
structure Config.SameSections (c c' : Config) : Prop where
  server : c'.server = c.server
  http : c'.http = c.http
  certificates : c'.certificates = c.certificates
  log : c'.log = c.log
  apiKeys : HashMap.Same c.auth.apiKeys c'.auth.apiKeys

/-- What is printed is read back, and holds nothing else. -/
structure Toml.ReadsBack (T : Toml) : Prop where
  fromStr : ∀ c text, T.toStringPretty c = some text → ∃ c', T.fromStr text = some c' ∧
    c.SameSections c' ∧ c'.auth.users = c.auth.users ∧ c'.auth.aclRules = c.auth.aclRules
  unknown : ∀ c text, T.toStringPretty c = some text → T.unknown text = []

section Files

variable (T : Toml)

/-- The configuration `main` and `save_config` take for a file: what is read of it, and the default
    for one that is not there or not read. -/
def loadOrDefault (file : Option String) : Config := (file.bind T.fromStr).getD .default

/-- The accounts after a start with the file, at `now` seconds since the epoch. -/
def startAccounts (now : ℕ) (file : Option String) : Accounts :=
  Accounts.load now (loadOrDefault T file).auth

/-- The entry `save_config` writes for a user. -/
def Account.saved (a : Account) : UserConfig :=
  ⟨a.username, a.password, a.userType.text, a.expiresAt, some a.maxAllocations, a.bandwidthLimit,
    a.ipWhitelist, a.maxAllocationDurationSecs⟩

/-- The entry `save_config` writes for a rule. -/
def AclRule.saved (r : AclRule) : AclRuleConfig where
  ipRange := r.ipRange
  action := match r.action with
    | .allow => "Allow"
    | .deny => "Deny"
  priority := some r.priority

/-- The configuration `save_config` writes, given the users in the order they are listed. -/
def savedConfig (users : List Account) (aclRules : List AclRule) (file : Option String) : Config :=
  let config := loadOrDefault T file
  { config with auth := { config.auth with
      users := users.map Account.saved, aclRules := aclRules.map AclRule.saved } }

/-- `save_config`: the text it writes, if it comes to that. -/
def saveConfig (state : AppState) (users : List Account) (aclRules : List AclRule)
    (file : Option String) : Option String :=
  match state.configPath with
  | some _ => T.toStringPretty (savedConfig T users aclRules file)
  | none => none

end Files

/-! ## Entries round trip -/

theorem AclRule.rule_saved (r : AclRule) : r.saved.rule = r := by
  obtain ⟨ipRange, action, priority⟩ := r
  have hallow : eqIgnoreAsciiCase "Allow" "allow" = true := by decide
  have hdeny : eqIgnoreAsciiCase "Deny" "allow" = false := by decide
  cases action <;> simp [saved, AclRuleConfig.rule, hallow, hdeny]

theorem Account.account_saved (a : Account) (now : ℕ) :
    a.saved.account now = { a with createdAt := now } := by
  simp [saved, UserConfig.account, UserType.ofText_text]

/-! ## What every running manager satisfies -/

/-- The users are under their names, and the rules sorted. -/
structure Accounts.Sound (s : Accounts) : Prop where
  names : ∀ name a, s.users.lookup name = some a → a.username = name
  sorted : s.aclRules.Pairwise (fun r r' => r'.priority.toNat ≤ r.priority.toNat)

namespace Accounts.Sound

variable {s : Accounts}

theorem new : Accounts.new.Sound where
  names := fun name a h => absurd h (by simp [Accounts.new])
  sorted := .nil

theorem addUser (h : s.Sound) (a : Account) : (s.addUser a).Sound where
  names := by
    intro name b hb
    rcases HashMap.lookup_insert_eq_some.1 hb with ⟨rfl, rfl⟩ | ⟨-, hold⟩
    · rfl
    · exact h.names name b hold
  sorted := h.sorted

theorem removeUser (h : s.Sound) (name : String) : (s.removeUser name).Sound where
  names := by
    intro name' b hb
    exact h.names name' b (HashMap.lookup_erase_eq_some.1 hb).2
  sorted := h.sorted

theorem addAclRule (h : s.Sound) (r : AclRule) : (s.addAclRule r).Sound where
  names := h.names
  sorted := StableSort.sorted_insertionSort (fun r : AclRule => r.priority.toNat) _

theorem removeAclRule (h : s.Sound) (ipRange : String) (priority : UInt32) :
    (s.removeAclRule ipRange priority).Sound where
  names := h.names
  sorted := h.sorted.filter _

theorem foldl {α : Type} {f : Accounts → α → Accounts} (hf : ∀ s a, s.Sound → (f s a).Sound)
    (h : s.Sound) (l : List α) : (l.foldl f s).Sound := by
  induction l generalizing s with
  | nil => exact h
  | cons a l ih => exact ih (hf s a h)

theorem load (now : ℕ) (c : AuthConfig) : (Accounts.load now c).Sound := by
  unfold Accounts.load
  refine foldl (fun s r hs => hs.addAclRule r) ?_ _
  refine foldl (fun s a hs => hs.addUser a) ?_ _
  exact foldl (fun s a hs => hs.addUser a) new _

theorem edit (h : s.Sound) (now : ℕ) (e : AdminEdit) : (e.apply now s).Sound := by
  cases e with
  | addUser req => exact h.addUser _
  | deleteUser username => exact h.removeUser _
  | updateUser req => exact (h.removeUser _).addUser _
  | addAcl req => exact h.addAclRule _
  | deleteAcl ipRange priority => exact h.removeAclRule _ _
  | updateAcl req => exact (h.removeAclRule _ _).addAclRule _

/-- Requests to the admin server keep it so. -/
theorem run {state : AppState} {s₀ : Accounts} {history : List Exchange} (h : s₀.Sound)
    (hrun : AdminRun state s₀ history s) : s.Sound := by
  refine Trace.Run.invariant (P := fun _ s => s.Sound) hrun h ?_
  intro history s x s' _ hs hstep
  rw [hstep.next]
  rcases hstep.handled.accounts with hsame | ⟨e, -, -, ho⟩
  · rw [hsame]
    exact hs
  · rw [ho]
    exact hs.edit _ e

end Accounts.Sound

/-! ## What the next start makes of the file -/

section Restart

variable {s : Accounts} {users : List Account}

theorem Accounts.load_aclRules (now : ℕ) (c : AuthConfig) :
    (Accounts.load now c).aclRules = (c.aclRules.map AclRuleConfig.rule).foldl
      (fun l r => (l ++ [r]).insertionSort (fun a b => b.priority.toNat ≤ a.priority.toNat))
      [] := by
  have hfold : ∀ (l : List AclRule) (s : Accounts), (l.foldl Accounts.addAclRule s).aclRules
      = l.foldl (fun l r => (l ++ [r]).insertionSort
          (fun a b => b.priority.toNat ≤ a.priority.toNat)) s.aclRules := by
    intro l
    induction l with
    | nil => exact fun _ => rfl
    | cons r l ih => exact fun s => ih _
  unfold Accounts.load
  rw [hfold, foldl_addUser_aclRules, foldl_addUser_aclRules]
  rfl

/-- The rules come back as they are. -/
theorem Accounts.Sound.load_aclRules (h : s.Sound) {c : AuthConfig}
    (hrules : c.aclRules = s.aclRules.map AclRule.saved) (now : ℕ) :
    (Accounts.load now c).aclRules = s.aclRules := by
  have hsaved : c.aclRules.map AclRuleConfig.rule = s.aclRules := by
    rw [hrules, List.map_map]
    exact (List.map_congr_left (fun r _ => r.rule_saved)).trans (List.map_id _)
  rw [Accounts.load_aclRules, hsaved]
  exact StableSort.foldl_push_of_sorted h.sorted

/-- So do the users, but for those of the API keys. -/
theorem Accounts.Sound.load_lookup (h : s.Sound) {c : AuthConfig}
    (hlisted : users.Perm s.listUsers) (husers : c.users = users.map Account.saved) (now : ℕ)
    (name : String) :
    ((Accounts.load now c).users.lookup name).map Account.undated =
      if name ∈ HashMap.values c.apiKeys then some (apiKeyAccount name)
      else (s.users.lookup name).map Account.undated := by
  rw [Accounts.load_lookup]
  split
  · rfl
  · have hdated : c.users.map (UserConfig.account now)
        = users.map (fun a => { a with createdAt := now }) := by
      rw [husers, List.map_map]
      exact List.map_congr_left (fun a _ => a.account_saved now)
    have hfound : users.reverse.find? (fun a => decide (a.username = name))
        = s.users.lookup name :=
      HashMap.find?_values h.names ((List.reverse_perm users).trans hlisted) name
    rw [hdated, ← List.map_reverse, List.find?_map, Option.map_map]
    exact congrArg (Option.map Account.undated) hfound

/-! ## Saving and starting again -/

variable {T : Toml} {state : AppState} {file : Option String} {text : String}

/-- A start with the text gives the users of the running manager, but for the times they were made,
    and its rules in their order. -/
structure Restores (T : Toml) (now : ℕ) (text : String) (s : Accounts) : Prop where
  users : ∀ name, ((startAccounts T now (some text)).users.lookup name).map Account.undated
    = (s.users.lookup name).map Account.undated
  aclRules : (startAccounts T now (some text)).aclRules = s.aclRules

/-- Of a file that was there, the text keeps what is neither a user nor a rule: the sections that
    `Config` has, as they are read, and the entries that it has not. -/
def Preserves (T : Toml) (file : Option String) (text : String) : Prop :=
  ∀ content, file = some content →
    (∃ c c', T.fromStr content = some c ∧ T.fromStr text = some c' ∧ c.SameSections c') ∧
      T.unknown text = T.unknown content

/-- The users of the file's API keys are as a start makes them. -/
def ApiUsersAsMade (T : Toml) (file : Option String) (s : Accounts) : Prop :=
  ∀ name ∈ HashMap.values (loadOrDefault T file).auth.apiKeys,
    (s.users.lookup name).map Account.undated = some (apiKeyAccount name)

/-- The file, if it is there, is read, and nothing of it is passed over. -/
def ReadInFull (T : Toml) (file : Option String) : Prop :=
  ∀ content, file = some content → (T.fromStr content).isSome ∧ T.unknown content = []

theorem toStringPretty_of_saveConfig {rules : List AclRule}
    (h : saveConfig T state users rules file = some text) :
    T.toStringPretty (savedConfig T users rules file) = some text := by
  unfold saveConfig at h
  split at h
  · exact h
  · exact absurd h (by simp)

theorem restores_iff (hT : T.ReadsBack) (h : s.Sound) (hlisted : users.Perm s.listUsers)
    (hprinted : T.toStringPretty (savedConfig T users s.aclRules file) = some text) (now : ℕ) :
    Restores T now text s ↔ ApiUsersAsMade T file s := by
  obtain ⟨c, hread, hsame, husers, hrules⟩ := hT.fromStr _ _ hprinted
  have hstart : startAccounts T now (some text) = Accounts.load now c.auth := by
    simp [startAccounts, loadOrDefault, hread]
  have hlookup := fun name => h.load_lookup hlisted husers now name
  have hkeys : ∀ name, name ∈ HashMap.values c.auth.apiKeys ↔
      name ∈ HashMap.values (loadOrDefault T file).auth.apiKeys :=
    fun name => (List.Perm.map Sigma.snd hsame.apiKeys).mem_iff.symm
  constructor
  · rintro ⟨hall, -⟩ name hname
    have heq := hall name
    rw [hstart, hlookup, if_pos ((hkeys name).2 hname)] at heq
    exact heq.symm
  · intro hmade
    refine ⟨fun name => ?_, by rw [hstart, h.load_aclRules hrules]⟩
    rw [hstart, hlookup]
    split
    · next hname => exact (hmade name ((hkeys name).1 hname)).symm
    · rfl

theorem preserves_iff (hT : T.ReadsBack) {rules : List AclRule}
    (hprinted : T.toStringPretty (savedConfig T users rules file) = some text) :
    Preserves T file text ↔ ReadInFull T file := by
  obtain ⟨c', hread, hsame, -⟩ := hT.fromStr _ _ hprinted
  have hknown := hT.unknown _ _ hprinted
  refine forall_congr' fun content => imp_congr_right fun hfile => ?_
  rw [hknown]
  constructor
  · rintro ⟨⟨c, -, hc, -⟩, hunknown⟩
    exact ⟨by rw [hc]; rfl, hunknown.symm⟩
  · rintro ⟨hsome, hunknown⟩
    obtain ⟨c, hc⟩ := Option.isSome_iff_exists.1 hsome
    have hload : loadOrDefault T file = c := by simp [loadOrDefault, hfile, hc]
    refine ⟨⟨c, c', hc, hread, ?_⟩, hunknown.symm⟩
    rw [← hload]
    exact ⟨hsame.server, hsame.http, hsame.certificates, hsame.log, hsame.apiKeys⟩

/-- When saving restores the authorisation state. After a start with any file and any requests to
    the admin server, whatever is in the file when `save_config` writes it: a start with what it
    wrote gives the running users and rules, and the rest of the file is kept, exactly if every user
    that the file's API keys name is as a start makes it, and the file, if it was there, was read
    and had nothing that is not read. -/
theorem saveConfig_restores_iff (hT : T.ReadsBack) {start : ℕ} {startFile : Option String}
    {history : List Exchange} (hrun : AdminRun state (startAccounts T start startFile) history s)
    (hlisted : users.Perm s.listUsers)
    (hsaved : saveConfig T state users s.aclRules file = some text) (now : ℕ) :
    Restores T now text s ∧ Preserves T file text ↔
      ApiUsersAsMade T file s ∧ ReadInFull T file := by
  have hsound : s.Sound := Accounts.Sound.run (.load start _) hrun
  have hprinted := toStringPretty_of_saveConfig hsaved
  exact and_congr (restores_iff hT hsound hlisted hprinted now) (preserves_iff hT hprinted)

end Restart

/-! ## An API key -/

/-- The default configuration with one API key. -/
def apiKeyConfig : Config :=
  { Config.default with
    auth := { Config.default.auth with apiKeys := AList.insert "key1" "user1" ∅ } }

/-- A reader that knows the file with the API key and one configuration it has printed. -/
def printsOnly (saved : Config) : Toml where
  fromStr := fun text =>
    if text = "file" then some apiKeyConfig else if text = "saved" then some saved else none
  toStringPretty := fun c => if c = saved then some "saved" else none
  unknown := fun _ => []

theorem printsOnly_readsBack (saved : Config) : (printsOnly saved).ReadsBack where
  fromStr := by
    intro c text h
    simp only [printsOnly] at h ⊢
    split_ifs at h with hc
    obtain rfl := Option.some.inj h
    rw [hc]
    exact ⟨saved, by simp, ⟨rfl, rfl, rfl, rfl, .refl _⟩, rfl, rfl⟩
  unknown := fun _ _ _ => rfl

/-- An admin server that asks for no login. -/
def openAdmin : AppState := { sampleAdmin with admin := ⟨none, none⟩, adminAcl := [] }

/-- An edit right after the start. -/
def firstEdit (e : AdminEdit) : Exchange :=
  let request : HttpRequest := ⟨.v4 ⟨127, 0, 0, 1⟩ 5000, none, none, [], .edit e⟩
  ⟨0, 0, ⟨0, 0, 0, 0⟩, request,
    handle openAdmin 0 ⟨0, 0, 0, 0⟩ (Accounts.load 0 apiKeyConfig.auth) request⟩

theorem firstEdit_run (saved : Config) (e : AdminEdit) :
    AdminRun openAdmin (startAccounts (printsOnly saved) 0 (some "file")) [firstEdit e]
      (firstEdit e).outcome.accounts :=
  .single ⟨rfl, rfl⟩

/-- What is written after the edit. -/
def savedAfter (e : AdminEdit) : Config :=
  savedConfig (printsOnly apiKeyConfig) (firstEdit e).outcome.accounts.listUsers
    (firstEdit e).outcome.accounts.aclRules (some "file")

theorem saveConfig_firstEdit (e : AdminEdit) :
    saveConfig (printsOnly (savedAfter e)) openAdmin (firstEdit e).outcome.accounts.listUsers
      (firstEdit e).outcome.accounts.aclRules (some "file") = some "saved" :=
  if_pos rfl

/-- A rule that is added survives the next start, and nothing else changes. -/
theorem saveConfig_restores_iff_denies :
    Restores (printsOnly (savedAfter (.addAcl ⟨"10.0.0.0/8", "Deny", 5⟩))) 10 "saved"
        (firstEdit (.addAcl ⟨"10.0.0.0/8", "Deny", 5⟩)).outcome.accounts ∧
      Preserves (printsOnly (savedAfter (.addAcl ⟨"10.0.0.0/8", "Deny", 5⟩))) (some "file")
        "saved" := by
  refine (saveConfig_restores_iff (printsOnly_readsBack _) (firstEdit_run _ _) (.refl _)
    (saveConfig_firstEdit _) 10).2 ⟨fun name hname => ?_, fun content hcontent => ?_⟩
  · obtain rfl : name = "user1" := List.mem_singleton.1 hname
    decide +kernel
  · obtain rfl := Option.some.inj hcontent
    exact ⟨rfl, rfl⟩

/-- A user of an API key that is deleted is back after the next start. -/
theorem deleted_api_user_back :
    (printsOnly (savedAfter (.deleteUser (some "user1")))).ReadsBack ∧
      AdminRun openAdmin
        (startAccounts (printsOnly (savedAfter (.deleteUser (some "user1")))) 0 (some "file"))
        [firstEdit (.deleteUser (some "user1"))]
        (firstEdit (.deleteUser (some "user1"))).outcome.accounts ∧
      saveConfig (printsOnly (savedAfter (.deleteUser (some "user1")))) openAdmin
        (firstEdit (.deleteUser (some "user1"))).outcome.accounts.listUsers
        (firstEdit (.deleteUser (some "user1"))).outcome.accounts.aclRules (some "file")
          = some "saved" ∧
      ¬ Restores (printsOnly (savedAfter (.deleteUser (some "user1")))) 10 "saved"
        (firstEdit (.deleteUser (some "user1"))).outcome.accounts := by
  refine ⟨printsOnly_readsBack _, firstEdit_run _ _, saveConfig_firstEdit _, fun hrestores => ?_⟩
  have hback : ((startAccounts (printsOnly (savedAfter (.deleteUser (some "user1")))) 10
      (some "saved")).users.lookup "user1").isSome = true := by decide +kernel
  have hgone : (firstEdit (.deleteUser (some "user1"))).outcome.accounts.users.lookup "user1"
      = none := by decide +kernel
  have huser := hrestores.users "user1"
  rw [hgone] at huser
  rw [Option.map_eq_none_iff.1 huser] at hback
  exact absurd hback (by simp)

end Miuturn
