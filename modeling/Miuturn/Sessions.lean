import Miuturn.Admin

set_option autoImplicit false

/-! # Admin sessions

The admin server keeps no sessions. A login answers with a cookie whose value is the same for
everyone and for ever, `check_auth` compares the cookie of a request with that value, and a logout
only asks the client to forget it. So the value opens the server to whoever has ever been told it,
logged out or not; and since a client learns it from a login alone, one that has not logged out
since does have a session.

The history of the admin server is a list of exchanges, each by some client. What the clients know
is an assumption on the cookies they send (`Exchange.Informed`): the session value is in them only
after an answer set it. -/

open RustStd

namespace Miuturn

/-! ## What a handler can do -/

/-- The users or rules were edited, or the answer tells the counters of the server. -/
def AdminAnswer.Honours : AdminAnswer → Prop
  | .health _ | .stats _ _ _ _ | .reloaded _ _ _ | .counters _ | .edited _ _ => True
  | .forbidden _ | .failure _ | .redirect _ | .page _ | .token _ | .registry => False

/-- The conditions under which the server honours a request. -/
def HttpRequest.Reaches (state : AppState) (req : HttpRequest) : Prop :=
  match req.action with
  | .stats | .reload | .edit _ =>
    adminAllowed state req = true ∧ checkAuth req.cookies state.admin = true
  | .metrics => adminAllowed state req = true ∧ state.metrics = false
  | .health => True
  | .root | .console | .dashboard | .login _ | .apiLogin _ | .logout => False

/-- The ways in which a request can end. -/
inductive Handled (state : AppState) (now : ℕ) (s : Accounts) (req : HttpRequest) :
    AdminOutcome → Prop
  | refused (answer : AdminAnswer) :
      ¬ answer.Honours → ¬ req.Reaches state → Handled state now s req (.reply s answer)
  | told (answer : AdminAnswer) :
      answer.Honours → req.Reaches state → Handled state now s req (.reply s answer)
  | loggedIn (form : LoginForm) (answer : AdminAnswer) :
      req.action = .login form ∨ req.action = .apiLogin form → state.admin.accepts form = true →
      ¬ answer.Honours → ¬ req.Reaches state →
      Handled state now s req ⟨s, some (sessionCookie, sessionValue), answer, false⟩
  | loggedOut : req.action = .logout → ¬ req.Reaches state →
      Handled state now s req (logoutHandler s)
  | edited (e : AdminEdit) : req.action = .edit e → req.Reaches state →
      Handled state now s req ⟨e.apply now s, none, e.answer, true⟩

theorem AdminEdit.answer_honours (e : AdminEdit) : e.answer.Honours := by
  cases e <;> trivial

section Handle

variable {state : AppState} {now : ℕ} {snapshot : ServerStats} {s : Accounts} {req : HttpRequest}
  {o : AdminOutcome}

theorem openSession_handled {form : LoginForm} {granted refused : AdminAnswer}
    (haction : req.action = .login form ∨ req.action = .apiLogin form)
    (hgranted : ¬ granted.Honours) (hrefused : ¬ refused.Honours) :
    Handled state now s req (openSession state s form granted refused) := by
  have hreaches : ¬ req.Reaches state := by
    rcases haction with h | h <;> simp [HttpRequest.Reaches, h]
  unfold openSession
  split
  · next haccepts => exact .loggedIn form granted haction haccepts hgranted hreaches
  · exact .refused refused hrefused hreaches

theorem guarded_handled (hallowed : adminAllowed state req = true)
    (hreaches : req.Reaches state ↔
      adminAllowed state req = true ∧ checkAuth req.cookies state.admin = true)
    (ho : req.Reaches state → Handled state now s req o) :
    Handled state now s req (guarded state s req o) := by
  unfold guarded
  split
  · next hauth => exact ho (hreaches.2 ⟨hallowed, hauth⟩)
  · next hauth => exact .refused _ (fun h => h) (fun h => hauth (hreaches.1 h).2)

theorem handle_handled : Handled state now s req (handle state now snapshot s req) := by
  unfold handle
  by_cases hin : (req.action.isPublic || adminAllowed state req) = true
  · rw [if_pos hin]
    have hallowed : req.action.isPublic = false → adminAllowed state req = true := by
      intro hpublic
      simpa [hpublic] using hin
    cases haction : req.action with
    | health => exact .told _ trivial (by simp [HttpRequest.Reaches, haction])
    | root => exact .refused _ (fun h => h) (by simp [HttpRequest.Reaches, haction])
    | console =>
        simp only [route, consoleHandler]
        split_ifs <;> exact .refused _ (fun h => h) (by simp [HttpRequest.Reaches, haction])
    | dashboard =>
        simp only [route, dashboardHandler]
        split_ifs <;> exact .refused _ (fun h => h) (by simp [HttpRequest.Reaches, haction])
    | login form => exact openSession_handled (Or.inl haction) (fun h => h) (fun h => h)
    | apiLogin form => exact openSession_handled (Or.inr haction) (fun h => h) (fun h => h)
    | logout => exact .loggedOut haction (by simp [HttpRequest.Reaches, haction])
    | stats =>
        exact guarded_handled (hallowed (by rw [haction]; rfl))
          (by simp [HttpRequest.Reaches, haction]) (fun h => .told _ trivial h)
    | reload =>
        exact guarded_handled (hallowed (by rw [haction]; rfl))
          (by simp [HttpRequest.Reaches, haction]) (fun h => .told _ trivial h)
    | metrics =>
        simp only [route, prometheusMetricsHandler]
        split_ifs with hmetrics
        · exact .refused _ (fun h => h) (by simp [HttpRequest.Reaches, haction, hmetrics])
        · refine .told _ trivial ?_
          simpa [HttpRequest.Reaches, haction, hallowed (by rw [haction]; rfl)] using hmetrics
    | edit e =>
        exact guarded_handled (hallowed (by rw [haction]; rfl))
          (by simp [HttpRequest.Reaches, haction]) (fun h => .edited e haction h)
  · -- the middleware answers
    rw [if_neg hin]
    refine .refused _ (fun h => h) ?_
    cases haction : req.action <;> simp_all [HttpRequest.Reaches, AdminAction.isPublic]

/-- The server honours exactly the requests that reach their handler's purpose. -/
theorem Handled.honours_iff (h : Handled state now s req o) :
    o.answer.Honours ↔ req.Reaches state := by
  cases h with
  | refused answer hanswer hreaches => exact iff_of_false hanswer hreaches
  | told answer hanswer hreaches => exact iff_of_true hanswer hreaches
  | loggedIn form answer _ _ hanswer hreaches => exact iff_of_false hanswer hreaches
  | loggedOut _ hreaches => exact iff_of_false (fun h => h) hreaches
  | edited e _ hreaches => exact iff_of_true e.answer_honours hreaches

/-- The session value is set by a login with the right password, and by nothing else. -/
theorem Handled.grants (h : Handled state now s req o) {name : String}
    (hcookie : o.setCookie = some (name, sessionValue)) :
    ∃ form, (req.action = .login form ∨ req.action = .apiLogin form) ∧
      state.admin.accepts form = true ∧ o.setCookie = some (sessionCookie, sessionValue) := by
  cases h with
  | refused answer _ _ => exact absurd hcookie (by simp [AdminOutcome.reply])
  | told answer _ _ => exact absurd hcookie (by simp [AdminOutcome.reply])
  | loggedIn form answer haction haccepts _ _ => exact ⟨form, haction, haccepts, rfl⟩
  | loggedOut _ _ => exact absurd hcookie (by simp [logoutHandler, sessionValue])
  | edited e _ _ => exact absurd hcookie (by simp)

/-- The accounts change by an edit that is honoured, and by nothing else. -/
theorem Handled.accounts (h : Handled state now s req o) :
    o.accounts = s ∨ ∃ e, req.action = .edit e ∧ req.Reaches state ∧
      o = ⟨e.apply now s, none, e.answer, true⟩ := by
  cases h with
  | refused answer _ _ => exact Or.inl rfl
  | told answer _ _ => exact Or.inl rfl
  | loggedIn form answer _ _ _ _ => exact Or.inl rfl
  | loggedOut _ _ => exact Or.inl rfl
  | edited e haction hreaches => exact Or.inr ⟨e, haction, hreaches, rfl⟩

end Handle

/-! ## Histories -/

/-- One request and its answer. -/
structure Exchange where
  client : ℕ
  now : ℕ
  snapshot : ServerStats
  request : HttpRequest
  outcome : AdminOutcome

/-- The admin server takes one request at a time. -/
structure AdminStep (state : AppState) (s : Accounts) (x : Exchange) (s' : Accounts) : Prop where
  outcome : handle state x.now x.snapshot s x.request = x.outcome
  next : s' = x.outcome.accounts

/-- Runs of the admin server, with their exchanges. -/
abbrev AdminRun (state : AppState) := Trace.Run (AdminStep state)

variable {state : AppState} {s₀ s s' : Accounts} {history : List Exchange} {x : Exchange}

theorem AdminStep.handled (h : AdminStep state s x s') :
    Handled state x.now s x.request x.outcome := by
  rw [← h.outcome]
  exact handle_handled

/-- The changes an exchange makes to the manager that the TURN server shares. -/
def Exchange.changes (x : Exchange) : List AuthChange :=
  match x.request.action with
  | .edit e => if x.outcome.saves then e.changes else []
  | _ => []

theorem Exchange.changes_of_not_saves (h : x.outcome.saves = false) : x.changes = [] := by
  unfold Exchange.changes
  split
  · rw [h]
    rfl
  · rfl

theorem AdminStep.manager (h : AdminStep state s x s') :
    s'.manager = x.changes.foldl AuthChange.apply s.manager := by
  have hhandled := h.handled
  rw [h.next]
  generalize ho : x.outcome = o at hhandled
  cases hhandled with
  | refused answer _ _ => rw [Exchange.changes_of_not_saves (by rw [ho]; rfl)]; rfl
  | told answer _ _ => rw [Exchange.changes_of_not_saves (by rw [ho]; rfl)]; rfl
  | loggedIn form answer _ _ _ _ => rw [Exchange.changes_of_not_saves (by rw [ho])]; rfl
  | loggedOut _ _ => rw [Exchange.changes_of_not_saves (by rw [ho]; rfl)]; rfl
  | edited e haction _ =>
      rw [AdminEdit.manager_apply]
      simp only [Exchange.changes, haction, ho, if_true]

/-- What the requests of a run do to the shared manager is what as many changes to the users and
    rules do in a run of the TURN server. -/
theorem AdminRun.manager (hrun : AdminRun state s₀ history s) :
    s.manager = (history.flatMap Exchange.changes).foldl AuthChange.apply s₀.manager := by
  induction hrun with
  | nil => rfl
  | snoc _ hstep ih => simp [hstep.manager, ih]

/-- The client is given a session by one of the two login handlers, for the configured name and
    password. -/
def Exchange.LogsIn (state : AppState) (client : ℕ) (x : Exchange) : Prop :=
  x.client = client ∧ ∃ form, (x.request.action = .login form ∨ x.request.action = .apiLogin form) ∧
    state.admin.accepts form = true ∧ x.outcome.setCookie = some (sessionCookie, sessionValue)

/-- The client is logged out by `logout_handler`. -/
def Exchange.LogsOut (client : ℕ) (x : Exchange) : Prop :=
  x.client = client ∧ x.request.action = .logout ∧ x.outcome.setCookie = some (sessionCookie, "")

/-- The client has logged in and has not logged out since. -/
def HasSession (state : AppState) (history : List Exchange) (client : ℕ) : Prop :=
  Trace.Since (Exchange.LogsIn state client) (Exchange.LogsOut client) history

/-- The client has logged out and has not logged in since. -/
def HasLoggedOut (state : AppState) (history : List Exchange) (client : ℕ) : Prop :=
  Trace.Since (Exchange.LogsOut client) (Exchange.LogsIn state client) history

/-- An answer to the client has set a cookie to the value. -/
def Knows (history : List Exchange) (client : ℕ) (value : String) : Prop :=
  ∃ x ∈ history, x.client = client ∧ ∃ name, x.outcome.setCookie = some (name, value)

/-- The request may carry any cookies, but the session value only if its sender knows it. -/
def Exchange.Informed (history : List Exchange) (x : Exchange) : Prop :=
  ∀ cookie ∈ x.request.cookies, cookie.2 = sessionValue → Knows history x.client sessionValue

/-- The request is honoured. -/
def Exchange.Honoured (x : Exchange) : Prop := x.outcome.answer.Honours

/-- Only a login makes the session value known. -/
theorem AdminRun.login_of_knows (hrun : AdminRun state s₀ history s) {client : ℕ}
    (h : Knows history client sessionValue) : ∃ x ∈ history, x.LogsIn state client := by
  obtain ⟨x, hx, hclient, name, hcookie⟩ := h
  obtain ⟨pre, s₁, s₂, -, -, hstep⟩ := hrun.of_mem hx
  exact ⟨x, hx, hclient, hstep.handled.grants hcookie⟩

/-- A client that knows the session value has a session, unless the last it did about one was to log
    out. -/
theorem AdminRun.hasSession_iff (hrun : AdminRun state s₀ history s) {client : ℕ}
    (h : Knows history client sessionValue) :
    HasSession state history client ↔ ¬ HasLoggedOut state history client := by
  refine Trace.since_iff_not_since ?_ (hrun.login_of_knows h)
  rintro x ⟨-, form, haction, -⟩ ⟨-, hlogout, -⟩
  rcases haction with haction | haction <;> exact absurd (haction.symm.trans hlogout) (by simp)

theorem checkAuth_iff {cookies : List (String × String)} {admin : AdminState}
    (hadmin : admin.adminUsername.isSome) :
    checkAuth cookies admin = true ↔ cookieValue cookies sessionCookie = some sessionValue := by
  obtain ⟨u, hu⟩ := Option.isSome_iff_exists.1 hadmin
  simp [checkAuth, hu]

theorem mem_of_cookieValue {cookies : List (String × String)} {name value : String}
    (h : cookieValue cookies name = some value) : (name, value) ∈ cookies := by
  obtain ⟨cookie, hfind, rfl⟩ := Option.map_eq_some_iff.1 h
  have hname : cookie.1 = name := by simpa using List.find?_some hfind
  rw [← hname]
  exact List.mem_reverse.1 (List.mem_of_find?_eq_some hfind)

/-- The requests that are honoured although their sender has no session: one with the session value
    whose sender has logged out, and one for a route that asks for no login. -/
def Exchange.Exposed (state : AppState) (history : List Exchange) (x : Exchange) : Prop :=
  match x.request.action with
  | .stats | .reload | .edit _ =>
    adminAllowed state x.request = true ∧
      cookieValue x.request.cookies sessionCookie = some sessionValue ∧
      HasLoggedOut state history x.client
  | .metrics =>
    adminAllowed state x.request = true ∧ state.metrics = false ∧
      ¬ HasSession state history x.client
  | .health => ¬ HasSession state history x.client
  | .root | .console | .dashboard | .login _ | .apiLogin _ | .logout => False

/-- Only a request that is honoured changes the accounts. -/
theorem AdminStep.honoured_of_ne (h : AdminStep state s x s') (hne : s' ≠ s) : x.Honoured := by
  rcases h.handled.accounts with hsame | ⟨e, -, hreaches, -⟩
  · exact absurd (h.next.trans hsame) hne
  · exact h.handled.honours_iff.2 hreaches

/-- Only an edit changes them. -/
theorem AdminStep.unchanged (h : AdminStep state s x s') (hedit : ∀ e, x.request.action ≠ .edit e) :
    s' = s := by
  rcases h.handled.accounts with hsame | ⟨e, haction, -⟩
  · exact h.next.trans hsame
  · exact absurd haction (hedit e)

/-- When admin requests need a login. In every run of requests by any clients against a server with
    an admin name, where a client sends the session value only if an answer has set it, a request
    that edits the users or rules or that reads the counters is honoured only for a client with a
    session, exactly unless its sender has logged out and sends the old cookie again, or its route
    is one that asks for no login. Requests that are not honoured change nothing. -/
theorem honoured_hasSession_iff (hadmin : state.admin.adminUsername.isSome)
    (hrun : AdminRun state s₀ history s) (hstep : AdminStep state s x s')
    (hinformed : x.Informed history) :
    (s' ≠ s → x.Honoured) ∧
      ((x.Honoured → HasSession state history x.client) ↔ ¬ x.Exposed state history) := by
  refine ⟨hstep.honoured_of_ne, ?_⟩
  unfold Exchange.Honoured
  rw [hstep.handled.honours_iff]
  -- the three kinds of routes with `check_auth`
  have hguarded : (adminAllowed state x.request = true ∧
        checkAuth x.request.cookies state.admin = true → HasSession state history x.client) ↔
      ¬ (adminAllowed state x.request = true ∧
        cookieValue x.request.cookies sessionCookie = some sessionValue ∧
        HasLoggedOut state history x.client) := by
    rw [checkAuth_iff hadmin]
    constructor
    · rintro h ⟨hallowed, hcookie, hout⟩
      have hknows := hinformed _ (mem_of_cookieValue hcookie) rfl
      exact (hrun.hasSession_iff hknows).1 (h ⟨hallowed, hcookie⟩) hout
    · rintro h ⟨hallowed, hcookie⟩
      have hknows := hinformed _ (mem_of_cookieValue hcookie) rfl
      exact (hrun.hasSession_iff hknows).2 (fun hout => h ⟨hallowed, hcookie, hout⟩)
  cases haction : x.request.action with
  | stats => simpa only [HttpRequest.Reaches, Exchange.Exposed, haction] using hguarded
  | reload => simpa only [HttpRequest.Reaches, Exchange.Exposed, haction] using hguarded
  | edit e => simpa only [HttpRequest.Reaches, Exchange.Exposed, haction] using hguarded
  | metrics => simp [HttpRequest.Reaches, Exchange.Exposed, haction]
  | health => simp [HttpRequest.Reaches, Exchange.Exposed, haction]
  | _ => simp [HttpRequest.Reaches, Exchange.Exposed, haction]

/-! ## A login and a logout -/

def sampleAdmin : AppState :=
  HttpConfig.appState
    { address := "0.0.0.0:8080", turnRestEnabled := none, turnRestSecret := none,
      turnRestDefaultLifetime := none, adminUsername := some "admin",
      adminPassword := some "secret", adminAcl := ["127.0.0.1"], trustProxy := none }
    "miuturn" "miuturn.toml"

/-- The exchange that a request of client 0 makes when there are no users yet. -/
def sampleExchange (cookies : List (String × String)) (action : AdminAction) : Exchange :=
  let request : HttpRequest := ⟨.v4 ⟨127, 0, 0, 1⟩ 5000, none, none, cookies, action⟩
  ⟨0, 0, ⟨0, 0, 0, 0⟩, request, handle sampleAdmin 0 ⟨0, 0, 0, 0⟩ .new request⟩

def adminLogin : Exchange := sampleExchange [] (.login ⟨"admin", "secret"⟩)

def adminLogout : Exchange := sampleExchange [(sessionCookie, sessionValue)] .logout

/-- A request to add `bob`, with the cookie of the login. -/
def addsBob : Exchange :=
  sampleExchange [(sessionCookie, sessionValue)]
    (.edit (.addUser ⟨"bob", "pw", "fixed", none, none, none, none, none⟩))

/-- A request that edits nothing leaves no users. -/
theorem sampleExchange_step (cookies : List (String × String)) {action : AdminAction}
    (hedit : ∀ e, action ≠ .edit e) :
    AdminStep sampleAdmin .new (sampleExchange cookies action) .new := by
  have hstep : AdminStep sampleAdmin .new (sampleExchange cookies action) _ := ⟨rfl, rfl⟩
  exact ⟨rfl, (hstep.unchanged hedit).symm⟩

theorem adminLogin_run : AdminRun sampleAdmin .new [adminLogin] .new :=
  .single (sampleExchange_step _ (by simp))

theorem addsBob_step : AdminStep sampleAdmin .new addsBob addsBob.outcome.accounts := ⟨rfl, rfl⟩

theorem addsBob_changes : addsBob.outcome.accounts ≠ .new := by
  have hbob : (addsBob.outcome.accounts.users.lookup "bob").isSome = true := by decide +kernel
  intro hnew
  rw [hnew] at hbob
  exact absurd hbob (by decide)

/-- After a login, the request is honoured because of the session. -/
theorem honoured_hasSession_iff_addsBob :
    addsBob.Honoured ∧ HasSession sampleAdmin [adminLogin] 0 := by
  have hinformed : addsBob.Informed [adminLogin] := fun _ _ _ =>
    ⟨adminLogin, List.mem_singleton_self _, rfl, sessionCookie, by decide +kernel⟩
  obtain ⟨hchanged, hiff⟩ := honoured_hasSession_iff rfl adminLogin_run addsBob_step hinformed
  have hhonoured : addsBob.Honoured := hchanged addsBob_changes
  refine ⟨hhonoured, hiff.2 ?_ hhonoured⟩
  rintro ⟨-, -, hout⟩
  rw [HasLoggedOut, ← List.nil_append [adminLogin], Trace.since_snoc] at hout
  rcases hout with ⟨-, haction, -⟩ | ⟨hnil, -⟩
  · exact absurd haction (by simp [adminLogin, sampleExchange])
  · exact Trace.not_since_nil hnil

/-- After a logout too: the old cookie still opens the server. -/
theorem replayed_cookie_honoured :
    AdminRun sampleAdmin .new [adminLogin, adminLogout] .new ∧
      AdminStep sampleAdmin .new addsBob addsBob.outcome.accounts ∧
      addsBob.Informed [adminLogin, adminLogout] ∧ addsBob.Honoured ∧
      addsBob.outcome.accounts ≠ .new ∧
      ¬ HasSession sampleAdmin [adminLogin, adminLogout] addsBob.client := by
  refine ⟨adminLogin_run.snoc (sampleExchange_step _ (by simp)), addsBob_step, fun _ _ _ => ?_,
    addsBob_step.honoured_of_ne addsBob_changes, addsBob_changes, ?_⟩
  · exact ⟨adminLogin, by simp, rfl, sessionCookie, by decide +kernel⟩
  · rw [HasSession, ← List.singleton_append, Trace.since_snoc]
    rintro (⟨-, form, haction, -⟩ | ⟨-, hout⟩)
    · rcases haction with haction | haction <;>
        exact absurd haction (by simp [adminLogout, sampleExchange])
    · exact hout ⟨rfl, rfl, by decide +kernel⟩

end Miuturn
