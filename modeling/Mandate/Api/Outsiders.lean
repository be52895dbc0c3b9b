/-
  Outsiders at the console.

  An outsider does not know the operator's password.  It may send any request,
  have any browser send any form, and plant cookies in any browser, at any
  point of other requests.  It changes no deal, mandate or approval, and opens
  no session for an operator (`outsider_changes_nothing`).  A logout holds
  against requests that are in flight, and a request that arrives with its
  cookie later opens an anonymous session and does nothing else
  (`logout_is_final`).
-/
import Mandate.Api.Console
import Mandate.Lib.System

namespace Mandate

namespace Console

/-! ## What a route may change -/

/-- What no route changes. -/
structure Kept (c c' : Console) : Prop where
  signer : c'.signer = c.signer
  operatorId : c'.operatorId = c.operatorId
  operatorPassword : c'.operatorPassword = c.operatorPassword
  sessionSecret : c'.sessionSecret = c.sessionSecret
  screen : c'.screen = c.screen

theorem Kept.refl (c : Console) : Kept c c := ⟨rfl, rfl, rfl, rfl, rfl⟩

/-- What an operation does not change. -/
structure Operated (c c' : Console) : Prop extends Kept c c' where
  sessions : c'.sessions = c.sessions

theorem Operated.refl (c : Console) : Operated c c := ⟨.refl c, rfl⟩

theorem operated_store (c : Console) (s : Store) : Operated c { c with store := s } :=
  ⟨⟨rfl, rfl, rfl, rfl, rfl⟩, rfl⟩

theorem registerDeal_operated (c : Console) (dealId : String) (record : AuthorityRecord)
    (createdAt : String) : Operated c (c.registerDeal dealId record createdAt).2 := by
  unfold registerDeal
  split
  · exact operated_store c _
  · split
    · exact operated_store c _
    · exact ⟨⟨rfl, rfl, rfl, rfl, rfl⟩, rfl⟩

theorem rememberScreenBadge_operated (c : Console) (dealId requestId : String)
    (screened : Option ScreenedContent) :
    Operated c (c.rememberScreenBadge dealId requestId screened) := by
  unfold rememberScreenBadge
  split
  · exact .refl c
  · exact ⟨⟨rfl, rfl, rfl, rfl, rfl⟩, rfl⟩

section
variable [Platform]

theorem newDeal_operated (c : Console) (d : Draws) : Operated c (c.newDeal d).2 := by
  unfold newDeal
  dsimp only
  split
  · exact .refl c
  · rename_i record _
    have h := c.registerDeal_operated (d.newUlid 0) record d.nowIso
    generalize c.registerDeal (d.newUlid 0) record d.nowIso = r at h ⊢
    obtain ⟨r, c'⟩ := r
    cases r <;> exact h

theorem boundaryEvent_operated (c : Console) (x : Exchange) (dealId : String) (d : Draws) :
    Operated c (c.boundaryEvent x dealId d).2 := by
  unfold boundaryEvent
  split
  · exact .refl c
  · split
    · exact .refl c
    · split <;> exact operated_store c _

theorem decideApproval_operated (c : Console) (x : Exchange) (dealId approvalId : String)
    (d : Draws) : Operated c (c.decideApproval x dealId approvalId d).2 := by
  unfold decideApproval
  split
  · exact .refl c
  · split <;> exact operated_store c _

theorem revoke_operated (c : Console) (dealId : String) (d : Draws) :
    Operated c (c.revoke dealId d).2 := by
  unfold revoke
  split
  · exact .refl c
  · split <;> exact operated_store c _

/-- A redirect to a deal, or an exception. -/
theorem body_empty_newDeal (c : Console) (d : Draws) :
    ∀ response, (c.newDeal d).1 = .ok response → response.body = .empty := by
  intro response h
  unfold newDeal at h
  dsimp only at h
  split at h
  · cases h
  · split at h <;> cases h
    rfl

theorem body_empty_decideApproval (c : Console) (x : Exchange) (dealId approvalId : String)
    (d : Draws) : ∀ response, (c.decideApproval x dealId approvalId d).1 = .ok response →
      response.body = .empty := by
  intro response h
  unfold decideApproval at h
  split at h
  · cases h
  · split at h <;> cases h
    rfl

theorem body_empty_revoke (c : Console) (dealId : String) (d : Draws) :
    ∀ response, (c.revoke dealId d).1 = .ok response → response.body = .empty := by
  intro response h
  unfold revoke at h
  split at h
  · cases h
  · split at h <;> cases h
    rfl

variable [PyDecimal.CharForms]

theorem propose_operated (c : Console) (x : Exchange) (dealId : String) (d : Draws) :
    Operated c (c.propose x dealId d).2 := by
  unfold propose
  split
  · exact .refl c
  · exact .refl c
  · split
    · exact .refl c
    · exact .refl c
    · dsimp only
      split
      · exact operated_store c _
      · rename_i s _
        have h := rememberScreenBadge_operated { c with store := s } dealId
        exact ⟨⟨(h _ _).signer, (h _ _).operatorId, (h _ _).operatorPassword,
          (h _ _).sessionSecret, (h _ _).screen⟩, (h _ _).sessions⟩

end

/-! ## The tokens of a response -/

/-- The tokens that a request's session shows: its own, and its form's. -/
def tokensOf (c : Console) (x : Exchange) : List String :=
  x.mandateToken :: (if c.csrfTokenFor x = "" then [] else [c.csrfTokenFor x])

end Console

theorem Exchange.field_mem {x : Exchange} {name : String} (h : x.field name ≠ "") :
    x.field name ∈ x.request.form.values := by
  unfold Exchange.field HttpRequest.field at h ⊢
  cases hv : x.request.form.get? name with
  | none => simp [hv] at h
  | some v => exact Dict.mem_values.2 ⟨name, hv⟩

def Body.tokens : Body → List String
  | .page _ csrfToken _ => if csrfToken = "" then [] else [csrfToken]
  | _ => []

def SetCookie.tokens : SetCookie → List String
  | .token value => [value]
  | .delete => []

/-- The session tokens and form tokens that a response carries. -/
def HttpResponse.tokens (r : HttpResponse) : List String :=
  r.cookies.flatMap SetCookie.tokens ++ r.response.body.tokens

namespace Console

/-- An answer carries the token of the request and what its body shows. -/
theorem Routed.tokens_answer {r : Routed} {v : String} (h : v ∈ r.answer.tokens) :
    v = r.token ∨ ∃ response, r.result = .ok response ∧ v ∈ response.body.tokens := by
  unfold Routed.answer HttpResponse.tokens at h
  split at h
  · rename_i response hr
    rcases List.mem_append.1 h with hc | hb
    · left
      split_ifs at hc <;> simpa [SetCookie.tokens] using hc
    · exact .inr ⟨response, hr, hb⟩
  · left
    simpa [SetCookie.tokens, Body.tokens] using h
  all_goals simp [Body.tokens] at h

theorem tokens_shows {c : Console} {x : Exchange} {result : Except RouteError Page} {v : String}
    (h : v ∈ (c.shows x result).answer.tokens) : v ∈ c.tokensOf x := by
  rcases Routed.tokens_answer h with rfl | ⟨response, hr, hv⟩
  · simp [shows, tokensOf]
  · cases result with
    | error e => cases hr
    | ok page =>
      cases hr
      exact List.mem_cons_of_mem _ hv

/-- A redirect or an exception carries the request's token at most. -/
theorem tokens_redirect {c : Console} {x : Exchange} {r : Except RouteError Response}
    (hr : ∀ response, r = .ok response → response.body = .empty) {v : String}
    (h : v ∈ (Routed.mk r x.mandateToken c).answer.tokens) : v = x.mandateToken := by
  rcases Routed.tokens_answer h with rfl | ⟨response, hok, hv⟩
  · rfl
  · rw [hr response hok] at hv
    cases hv

theorem Operated.tokensOf {c c' : Console} (h : Operated c c') (x : Exchange) :
    c'.tokensOf x = c.tokensOf x := by
  have hcsrf : c'.csrfTokenFor x = c.csrfTokenFor x := by
    simp only [csrfTokenFor, getSession, h.sessions]
  rw [Console.tokensOf, Console.tokensOf, hcsrf]

theorem mandateToken_tokensOf (c : Console) (x : Exchange) : x.mandateToken ∈ c.tokensOf x :=
  List.mem_cons_self ..

/-! ## What finishing a request does -/

theorem requireAuth_ok {c : Console} {x : Exchange} {session : Session}
    (h : c.requireAuth x = .ok session) :
    c.getSession x = some session ∧ session.authenticated = true := by
  unfold requireAuth at h
  split at h
  · rename_i hs
    cases h
    exact Option.filter_eq_some_iff.1 hs
  · split_ifs at h

section
variable [CsrfSerializer]

/-- A form token that is accepted is the one of the request's session. -/
theorem verifyCsrf_ok {c : Console} {x : Exchange} {submitted : String} {time : ℤ}
    (h : c.verifyCsrf x submitted time = .ok true) :
    ∃ session, c.getSession x = some session ∧ submitted ≠ "" ∧
      submitted = session.csrfToken := by
  unfold verifyCsrf at h
  cases hs : c.getSession x with
  | none => simp [hs] at h
  | some session =>
    simp only [hs] at h
    by_cases hempty : submitted = ""
    · simp [hempty] at h
    · rw [if_neg hempty] at h
      obtain ⟨equal, he, h⟩ := bind_ok.1 h
      cases equal with
      | false => cases h
      | true => exact ⟨session, rfl, hempty, eq_of_compareDigest he⟩

/-- The middleware keeps the session of the cookie, or opens an anonymous one. -/
theorem sessionMiddleware_cases (c : Console) (request : HttpRequest) (d : SessionDraw) :
    (∃ token session, request.cookie = some token ∧ c.sessions.get? token = some session ∧
      c.sessionMiddleware request d = (⟨request, token⟩, c)) ∨
    c.sessionMiddleware request d = (⟨request, d.token⟩,
      { c with sessions := c.sessions.set d.token ⟨c.newCsrf d, false⟩ }) := by
  unfold sessionMiddleware
  cases hc : request.cookie.filter fun token => (c.sessions.get? token).isSome with
  | none => exact .inr rfl
  | some token =>
    obtain ⟨hcookie, hs⟩ := Option.filter_eq_some_iff.1 hc
    obtain ⟨session, hs⟩ := Option.isSome_iff_exists.1 hs
    exact .inl ⟨token, session, hcookie, hs, rfl⟩

/-- The ways a request ends. -/
inductive Finished (c : Console) (x : Exchange) (d : Draws) : HttpResponse × Console → Prop where
  | operated {r : HttpResponse} {c' : Console} {session : Session}
      (hx : x.request.endpoint.operates = true) (hs : c.getSession x = some session)
      (hne : x.field "csrf_token" ≠ "") (hf : x.field "csrf_token" = session.csrfToken)
      (hc : Operated c c') (ht : r.tokens ⊆ c.tokensOf x) : Finished c x d (r, c')
  | loggedIn {r : HttpResponse} {session : Session} (hx : x.request.endpoint = .loginPost)
      (hs : c.getSession x = some session) (hne : x.field "csrf_token" ≠ "")
      (hf : x.field "csrf_token" = session.csrfToken)
      (hp : x.field "password" = c.operatorPassword) (ht : r.tokens ⊆ [d.session.token]) :
      Finished c x d (r, { c with sessions :=
        (c.sessions.set d.session.token ⟨c.newCsrf d.session, true⟩).remove x.mandateToken })
  | loggedOut {r : HttpResponse} (hx : x.request.endpoint = .logout)
      (ht : r.tokens ⊆ c.tokensOf x) : Finished c x d (r, c.destroySession x)
  | unchanged {r : HttpResponse} (hx : x.request.endpoint ≠ .logout)
      (ht : r.tokens ⊆ c.tokensOf x) : Finished c x d (r, c)

theorem finished_loginPost {c : Console} {x : Exchange} {d : Draws}
    (hx : x.request.endpoint = .loginPost) :
    Finished c x d ((c.loginPost x d).answer, (c.loginPost x d).console) := by
  have hsame : ∀ {r : Except RouteError Response},
      (∀ response, r = .ok response → response.body.tokens ⊆ c.tokensOf x) →
      Finished c x d ((Routed.mk r x.mandateToken c).answer, c) := by
    intro r hr
    refine .unchanged (by simp [hx]) fun v hv => ?_
    rcases Routed.tokens_answer hv with rfl | ⟨response, hok, hb⟩
    · exact c.mandateToken_tokensOf x
    · exact hr response hok hb
  unfold loginPost
  split
  · exact hsame (by rintro _ ⟨⟩)
  · exact hsame (by rintro _ ⟨⟩)
  · rename_i hok
    obtain ⟨known, hknown, hne, hf⟩ := verifyCsrf_ok hok
    split
    · exact hsame (by rintro _ ⟨⟩)
    · refine hsame ?_
      rintro _ ⟨⟩
      exact List.subset_cons_self _ _
    · rename_i hp
      split
      · exact hsame (by rintro _ ⟨⟩)
      · rename_i y c' hlogin
        unfold authenticateSession at hlogin
        split at hlogin
        · cases hlogin
        · rename_i session hs
          cases hlogin
          refine .loggedIn hx hknown hne hf (eq_of_compareDigest hp) fun v hv => ?_
          rw [tokens_redirect (x := { x with mandateToken := d.session.token })
            (by rintro _ ⟨⟩; rfl) hv]
          exact List.mem_singleton_self _

variable [Platform]

variable [PyDecimal.CharForms]

/-- A route that is open to everybody, or whose page changes nothing. -/
theorem finished_route {c : Console} {x : Exchange} {d : Draws}
    (hx : x.request.endpoint.operates = false) :
    Finished c x d ((c.route x d).answer, (c.route x d).console) := by
  have hpage : x.request.endpoint ≠ .logout → ∀ result : Except RouteError Page,
      Finished c x d ((c.shows x result).answer, (c.shows x result).console) :=
    fun hl result => .unchanged hl fun v hv => tokens_shows hv
  unfold route
  cases he : x.request.endpoint with
  | loginGet => exact hpage (by simp [he]) _
  | loginPost => exact finished_loginPost he
  | logout =>
    refine .loggedOut he fun v hv => ?_
    rw [tokens_redirect (by rintro _ ⟨⟩; rfl) hv]
    exact c.mandateToken_tokensOf x
  | home => exact hpage (by simp [he]) _
  | dealDetail dealId => exact hpage (by simp [he]) _
  | timeline dealId => exact hpage (by simp [he]) _
  | proposeForm dealId => exact hpage (by simp [he]) _
  | framework status text =>
    refine .unchanged (by simp [he]) fun v hv => ?_
    rcases Routed.tokens_answer hv with rfl | ⟨response, hok, hb⟩
    · exact c.mandateToken_tokensOf x
    · cases hok
      cases hb
  | newDeal | propose | boundaryEvent | decideApproval | revoke =>
    simp [he, Endpoint.operates] at hx

/-- An operation keeps the sessions, and its response shows the request's own. -/
theorem operated_route {c : Console} {x : Exchange} (d : Draws)
    (hx : x.request.endpoint.operates = true) :
    Operated c (c.route x d).console ∧ (c.route x d).answer.tokens ⊆ c.tokensOf x := by
  have hpage : ∀ {c' : Console} (result : Except RouteError Page), Operated c c' →
      Operated c (c'.shows x result).console ∧
        (c'.shows x result).answer.tokens ⊆ c.tokensOf x := by
    intro c' result h
    exact ⟨h, fun v hv => h.tokensOf x ▸ tokens_shows hv⟩
  have hredirect : ∀ {c' : Console} {r : Except RouteError Response}, Operated c c' →
      (∀ response, r = .ok response → response.body = .empty) →
      Operated c c' ∧ (Routed.mk r x.mandateToken c').answer.tokens ⊆ c.tokensOf x := by
    intro c' r h hr
    refine ⟨h, fun v hv => ?_⟩
    rw [tokens_redirect hr hv]
    exact c.mandateToken_tokensOf x
  unfold route
  cases he : x.request.endpoint with
  | newDeal => exact hredirect (c.newDeal_operated d) (c.body_empty_newDeal d)
  | propose dealId => exact hpage _ (c.propose_operated x dealId d)
  | boundaryEvent dealId => exact hpage _ (c.boundaryEvent_operated x dealId d)
  | decideApproval dealId approvalId =>
    exact hredirect (c.decideApproval_operated x dealId approvalId d)
      (c.body_empty_decideApproval x dealId approvalId d)
  | revoke dealId => exact hredirect (c.revoke_operated dealId d) (c.body_empty_revoke dealId d)
  | loginGet | loginPost | logout | home | dealDetail | timeline | proposeForm | framework =>
    simp [he, Endpoint.operates] at hx

theorem finish_cases (c : Console) (x : Exchange) (d : Draws) : Finished c x d (c.finish x d) := by
  unfold finish
  cases hx : x.request.endpoint.operates with
  | false => exact finished_route hx
  | true =>
    dsimp only
    rw [if_pos rfl]
    cases hv : c.requireCsrf x d.time with
    | error e =>
      refine .unchanged (fun he => by simp [he, Endpoint.operates] at hx) fun v hv => ?_
      rw [tokens_redirect (by rintro _ ⟨⟩) hv]
      exact c.mandateToken_tokensOf x
    | ok u =>
      unfold requireCsrf at hv
      split at hv
      · cases hv
      · rename_i hok
        obtain ⟨session, hs, hne, hf⟩ := verifyCsrf_ok hok
        obtain ⟨hc, ht⟩ := operated_route d hx
        exact .operated hx hs hne hf hc ht
      · cases hv

end

/-! ## Session tables -/

/-- A text that a session is known by. -/
def Secret (c : Console) (v : String) : Prop :=
  ∃ token session, c.sessions.get? token = some session ∧ (v = token ∨ v = session.csrfToken)

/-- A text that an operator's session is known by. -/
def Privileged (c : Console) (v : String) : Prop :=
  ∃ token session, c.sessions.get? token = some session ∧ session.authenticated = true ∧
    (v = token ∨ v = session.csrfToken)

theorem Privileged.secret {c : Console} {v : String} (h : c.Privileged v) : c.Secret v := by
  obtain ⟨token, session, hs, -, hv⟩ := h
  exact ⟨token, session, hs, hv⟩

end Console

/-- The texts of a session table are in use, and tell the sessions apart. -/
structure Tabled (used : List String) (sessions : Dict String Session) : Prop where
  used : ∀ token session, sessions.get? token = some session →
    token ∈ used ∧ session.csrfToken ∈ used
  token_ne : ∀ token session token' session', sessions.get? token = some session →
    sessions.get? token' = some session' → token ≠ session'.csrfToken
  csrf_inj : ∀ token session token' session', sessions.get? token = some session →
    sessions.get? token' = some session' → session.csrfToken = session'.csrfToken → token = token'

namespace Tabled

variable {used used' : List String} {sessions : Dict String Session}

theorem mono (h : Tabled used sessions) (hu : used ⊆ used') : Tabled used' sessions :=
  { h with used := fun token session hs =>
      ⟨hu (h.used token session hs).1, hu (h.used token session hs).2⟩ }

theorem remove (h : Tabled used sessions) (token : String) :
    Tabled used (sessions.remove token) := by
  have hget : ∀ k session, (sessions.remove token).get? k = some session →
      sessions.get? k = some session := fun k session hk => (Dict.get?_of_remove hk).2
  exact ⟨fun k s hk => h.used k s (hget k s hk),
    fun k s k' s' hk hk' => h.token_ne k s k' s' (hget k s hk) (hget k' s' hk'),
    fun k s k' s' hk hk' => h.csrf_inj k s k' s' (hget k s hk) (hget k' s' hk')⟩

/-- A session whose texts are new. -/
theorem opened (h : Tabled used sessions) {token csrf : String} {authenticated : Bool}
    (ht : token ∉ used) (hc : csrf ∉ used) (hne : token ≠ csrf) :
    Tabled (used ++ [token, csrf]) (sessions.set token ⟨csrf, authenticated⟩) := by
  have hget : ∀ k session, (sessions.set token ⟨csrf, authenticated⟩).get? k = some session →
      k = token ∧ session.csrfToken = csrf ∨ sessions.get? k = some session := by
    intro k session hk
    rw [Dict.get?_set] at hk
    split_ifs at hk with hkt
    · cases hk
      exact .inl ⟨hkt, rfl⟩
    · exact .inr hk
  constructor
  · intro k s hk
    rcases hget k s hk with ⟨rfl, hs⟩ | hk
    · rw [hs]
      simp
    · exact ⟨List.mem_append_left _ (h.used k s hk).1, List.mem_append_left _ (h.used k s hk).2⟩
  · intro k s k' s' hk hk'
    rcases hget k s hk with ⟨rfl, -⟩ | hold <;> rcases hget k' s' hk' with ⟨-, hs'⟩ | hold'
    · rwa [hs']
    · rintro rfl
      exact ht (h.used k' s' hold').2
    · rintro rfl
      exact hc (hs' ▸ (h.used _ s hold).1)
    · exact h.token_ne k s k' s' hold hold'
  · intro k s k' s' hk hk' heq
    rcases hget k s hk with ⟨rfl, hs⟩ | hold <;> rcases hget k' s' hk' with ⟨rfl, hs'⟩ | hold'
    · rfl
    · exact absurd (hs ▸ heq ▸ (h.used k' s' hold').2) hc
    · exact absurd (hs' ▸ heq ▸ (h.used k s hold).2) hc
    · exact h.csrf_inj k s k' s' hold hold' heq

end Tabled

/-! ## Transcripts -/

/-- The server, the tokens its responses carried, by the request they answered,
    and the texts that requests presented or that were drawn. -/
structure Transcript where
  server : Server
  sent : List (ℕ × String)
  used : List String

def HttpRequest.texts (r : HttpRequest) : List String := r.cookie.toList ++ r.form.values

section
variable [CsrfSerializer]

/-- The request that a part serves. -/
def ServerPart.number (s : Server) : ServerPart → ℕ
  | .arrive _ _ => s.arrivals
  | .authorise n | .finish n _ => n

/-- The texts that come into use with a part. -/
def ServerPart.texts (c : Console) : ServerPart → List String
  | .arrive request d => request.texts ++ [d.token, c.newCsrf d]
  | .authorise _ => []
  | .finish _ d => [d.session.token, c.newCsrf d.session]

/-- Neither the drawn token nor its form token is in use. -/
structure Console.Drawn (c : Console) (used : List String) (d : Console.SessionDraw) : Prop where
  token : d.token ∉ used
  csrf : c.newCsrf d ∉ used
  ne : d.token ≠ c.newCsrf d

/-- What a part draws is new. -/
def Transcript.Fresh (t : Transcript) : ServerPart → Prop
  | .arrive request d => t.server.console.Drawn (t.used ++ request.texts) d
  | .authorise _ => True
  | .finish _ d => t.server.console.Drawn t.used d.session

variable [Platform] [PyDecimal.CharForms]

def Transcript.run (t : Transcript) (part : ServerPart) : Option Transcript :=
  (t.server.run part).map fun (response, server) =>
    { server
      sent := t.sent ++ ((response.map HttpResponse.tokens).getD []).map
        (Prod.mk (part.number t.server))
      used := t.used ++ part.texts t.server.console }

/-- What one part does to a transcript. -/
inductive Transcript.Runs (t : Transcript) : ServerPart → Transcript → Prop where
  | arrive (request : HttpRequest) (d : Console.SessionDraw) :
      Runs t (.arrive request d)
        { server :=
            { console := (t.server.console.sessionMiddleware request d).2
              arrivals := t.server.arrivals + 1
              inFlight := t.server.inFlight.set t.server.arrivals
                ⟨(t.server.console.sessionMiddleware request d).1, !request.endpoint.guarded⟩ }
          sent := t.sent
          used := t.used ++ (request.texts ++ [d.token, t.server.console.newCsrf d]) }
  | authorised {n : ℕ} {p : Pending} {session : Session}
      (hp : t.server.inFlight.get? n = some p)
      (hs : t.server.console.getSession p.exchange = some session)
      (ha : session.authenticated = true) :
      Runs t (.authorise n) { t with server := { t.server with
        inFlight := t.server.inFlight.set n { p with authorised := true } } }
  | refused {n : ℕ} {p : Pending} {tokens : List String}
      (hp : t.server.inFlight.get? n = some p) (ht : tokens ⊆ [p.exchange.mandateToken]) :
      Runs t (.authorise n)
        { t with
          server := { t.server with inFlight := t.server.inFlight.remove n }
          sent := t.sent ++ tokens.map (Prod.mk n) }
  | finished {n : ℕ} {d : Console.Draws} {p : Pending} {r : HttpResponse} {c' : Console}
      (hp : t.server.inFlight.get? n = some p) (ha : p.authorised = true)
      (hc : t.server.console.Finished p.exchange d (r, c')) :
      Runs t (.finish n d)
        { server := { t.server with console := c', inFlight := t.server.inFlight.remove n }
          sent := t.sent ++ r.tokens.map (Prod.mk n)
          used := t.used ++ [d.session.token, t.server.console.newCsrf d.session] }

theorem Transcript.runs_of_run {t t' : Transcript} {part : ServerPart}
    (h : t.run part = some t') : t.Runs part t' := by
  obtain ⟨⟨response, server⟩, hrun, rfl⟩ := Option.map_eq_some_iff.1 h
  cases part with
  | arrive request d =>
    cases hrun
    have hruns := Runs.arrive (t := t) request d
    rwa [← List.append_nil t.sent] at hruns
  | authorise n =>
    obtain ⟨p, hp, ⟨session, hr, rfl, rfl⟩ | ⟨e, hr, rfl, rfl⟩⟩ := Server.run_authorise hrun
    · obtain ⟨hs, ha⟩ := Console.requireAuth_ok hr
      have hruns := Runs.authorised (t := t) hp hs ha
      rwa [← List.append_nil t.sent, ← List.append_nil t.used] at hruns
    · have hnone : ∀ response, (.error e : Except RouteError Response) = .ok response →
          response.body = .empty := by rintro _ ⟨⟩
      have hruns := Runs.refused (t := t) hp fun v hv =>
        List.mem_singleton.2 (Console.tokens_redirect (c := t.server.console) hnone hv)
      rwa [← List.append_nil t.used] at hruns
  | finish n d =>
    obtain ⟨p, hp, ha, rfl, rfl⟩ := Server.run_finish hrun
    exact .finished hp ha (t.server.console.finish_cases p.exchange d)

end

/-! ## What is tracked of the tokens -/

/-- The texts of a request in flight are in use, and a checked login was the
    one of the session it has. -/
structure Pending.Tracked (p : Pending) (used : List String) (c : Console) : Prop where
  token : p.exchange.mandateToken ∈ used
  form : ∀ v ∈ p.exchange.request.form.values, v ∈ used
  checked : p.authorised = true → p.exchange.request.endpoint.guarded = true →
    ∀ session, c.getSession p.exchange = some session → session.authenticated = true

/-- The sessions that are known by a text in use are old ones. -/
def Console.Older (used : List String) (c c' : Console) : Prop :=
  ∀ token session, c'.sessions.get? token = some session →
    token ∈ used ∨ session.csrfToken ∈ used → c.sessions.get? token = some session

theorem Console.Older.refl (used : List String) (c : Console) : Console.Older used c c :=
  fun _ _ hs _ => hs

theorem Console.Older.privileged {used : List String} {c c' : Console} {v : String}
    (h : Console.Older used c c') (hv : v ∈ used) (hp : c'.Privileged v) : c.Privileged v := by
  obtain ⟨token, session, hs, ha, rfl | rfl⟩ := hp
  · exact ⟨v, session, h v session hs (.inl hv), ha, .inl rfl⟩
  · exact ⟨token, session, h token session hs (.inr hv), ha, .inr rfl⟩

theorem Pending.Tracked.mono {p : Pending} {used used' : List String} {c c' : Console}
    (h : p.Tracked used c) (hu : used ⊆ used') (hold : Console.Older used c c') :
    p.Tracked used' c' where
  token := hu h.token
  form v hv := hu (h.form v hv)
  checked ha hg session hs := h.checked ha hg session (hold _ session hs (.inl h.token))

/-- The texts of sessions, responses and requests in flight are in use. -/
structure Transcript.Tracked (t : Transcript) : Prop where
  table : Tabled t.used t.server.console.sessions
  sent : ∀ n v, (n, v) ∈ t.sent → v ∈ t.used
  inFlight : ∀ n p, t.server.inFlight.get? n = some p → p.Tracked t.used t.server.console

/-- The tokens that a request shows are in use. -/
theorem Transcript.Tracked.tokensOf {t : Transcript} (h : t.Tracked) {n : ℕ} {p : Pending}
    (hp : t.server.inFlight.get? n = some p) :
    t.server.console.tokensOf p.exchange ⊆ t.used := by
  intro v hv
  rcases List.mem_cons.1 hv with rfl | hv
  · exact (h.inFlight n p hp).token
  · split_ifs at hv with hempty
    · cases hv
    · rw [List.mem_singleton.1 hv, Console.csrfTokenFor] at *
      cases hs : t.server.console.getSession p.exchange with
      | none => simp [hs] at hempty
      | some session => exact (h.table.used _ session hs).2

theorem mem_sent_append {sent : List (ℕ × String)} {tokens : List String} {n m : ℕ} {v : String}
    (h : (m, v) ∈ sent ++ tokens.map (Prod.mk n)) : (m, v) ∈ sent ∨ m = n ∧ v ∈ tokens := by
  rcases List.mem_append.1 h with h | h
  · exact .inl h
  · obtain ⟨w, hw, heq⟩ := List.mem_map.1 h
    cases heq
    exact .inr ⟨rfl, hw⟩

section
variable [CsrfSerializer]

/-- Opening a session under new texts leaves the ones in use. -/
theorem Console.older_opened {c : Console} {used : List String} {d : Console.SessionDraw}
    (h : c.Drawn used d) (authenticated : Bool) :
    Console.Older used c (c.openSession d authenticated) := by
  intro token session hs hused
  by_cases ht : token = d.token
  · subst ht
    rw [Console.openSession, Dict.get?_set_self] at hs
    cases hs
    exact (hused.elim h.token h.csrf).elim
  · exact (Dict.get?_set_ne _ _ ht).symm.trans hs

/-- After the last part the sessions are tabled, and the ones in use are old. -/
theorem Console.Finished.tabled {c c' : Console} {x : Exchange} {d : Console.Draws}
    {r : HttpResponse} {used : List String} (h : c.Finished x d (r, c'))
    (ht : Tabled used c.sessions) (hd : c.Drawn used d.session) :
    Tabled (used ++ [d.session.token, c.newCsrf d.session]) c'.sessions ∧
      Console.Older used c c' := by
  have hmono : used ⊆ used ++ [d.session.token, c.newCsrf d.session] :=
    List.subset_append_left _ _
  cases h with
  | operated hx hs hne hf hc hshown =>
    rw [Console.Older, hc.sessions]
    exact ⟨ht.mono hmono, fun _ _ hs _ => hs⟩
  | loggedIn hx hs hne hf hp hshown =>
    refine ⟨(ht.opened hd.token hd.csrf hd.ne).remove _, fun token session hs hu => ?_⟩
    exact c.older_opened hd true token session (Dict.get?_of_remove hs).2 hu
  | loggedOut hx hshown =>
    exact ⟨(ht.mono hmono).remove _, fun token session hs _ => (Dict.get?_of_remove hs).2⟩
  | unchanged hx hshown => exact ⟨ht.mono hmono, .refl used c⟩

/-- What a finished request shows is its own, or was drawn for a login with the
    password. -/
theorem Console.Finished.shown {c c' : Console} {x : Exchange} {d : Console.Draws}
    {r : HttpResponse} (h : c.Finished x d (r, c')) {v : String} (hv : v ∈ r.tokens) :
    v ∈ c.tokensOf x ∨ v = d.session.token ∧ x.field "password" = c.operatorPassword := by
  cases h with
  | operated hx hs hne hf hc hshown => exact .inl (hshown hv)
  | loggedIn hx hs hne hf hp hshown => exact .inr ⟨List.mem_singleton.1 (hshown hv), hp⟩
  | loggedOut hx hshown => exact .inl (hshown hv)
  | unchanged hx hshown => exact .inl (hshown hv)

theorem Console.Finished.operatorPassword {c c' : Console} {x : Exchange} {d : Console.Draws}
    {r : HttpResponse} (h : c.Finished x d (r, c')) :
    c'.operatorPassword = c.operatorPassword := by
  cases h with
  | operated hx hs hne hf hc hshown => exact hc.operatorPassword
  | loggedIn | loggedOut | unchanged => rfl

theorem Transcript.Runs.used_subset {t t' : Transcript} {part : ServerPart} (hr : t.Runs part t') :
    t.used ⊆ t'.used := by
  cases hr with
  | arrive | finished => exact List.subset_append_left _ _
  | authorised | refused => exact List.Subset.refl _

/-- A part that draws new texts leaves the sessions in use, or drops them. -/
theorem Transcript.Runs.older {t t' : Transcript} {part : ServerPart} (hr : t.Runs part t')
    (ht : Tabled t.used t.server.console.sessions) (hf : t.Fresh part) :
    Console.Older t.used t.server.console t'.server.console := by
  cases hr with
  | arrive request d =>
    rcases t.server.console.sessionMiddleware_cases request d with
      ⟨token, session, hcookie, hs, heq⟩ | heq
    · rw [heq]
      exact .refl _ _
    · rw [heq]
      have hnew : t.server.console.Drawn (t.used ++ request.texts) d := hf
      exact t.server.console.older_opened ⟨fun h => hnew.token (List.mem_append_left _ h),
        fun h => hnew.csrf (List.mem_append_left _ h), hnew.ne⟩ false
  | authorised | refused => exact .refl _ _
  | finished hp ha hc => exact (hc.tabled ht hf).2

/-- A part that draws new texts keeps the transcript tracked. -/
theorem Transcript.Tracked.run {t t' : Transcript} {part : ServerPart} (h : t.Tracked)
    (hf : t.Fresh part) (hr : t.Runs part t') : t'.Tracked := by
  have hold := hr.older h.table hf
  have hu := hr.used_subset
  cases hr with
  | arrive request d =>
    have hnew : t.server.console.Drawn (t.used ++ request.texts) d := hf
    have hform : ∀ v ∈ request.form.values,
        v ∈ t.used ++ (request.texts ++ [d.token, t.server.console.newCsrf d]) := by
      intro v hv
      simp [HttpRequest.texts, hv]
    have hunchecked : (!request.endpoint.guarded) = true → request.endpoint.guarded ≠ true := by
      cases request.endpoint.guarded <;> simp
    have hpending : ∀ x : Exchange, x.request = request → x.mandateToken ∈
          t.used ++ (request.texts ++ [d.token, t.server.console.newCsrf d]) →
        ∀ n p, (t.server.inFlight.set t.server.arrivals ⟨x, !request.endpoint.guarded⟩).get? n =
          some p → p.Tracked (t.used ++ (request.texts ++ [d.token, t.server.console.newCsrf d]))
            (t.server.console.sessionMiddleware request d).2 := by
      rintro x rfl hx n p hp
      rw [Dict.get?_set] at hp
      split_ifs at hp
      · cases hp
        exact ⟨hx, hform, fun ha hg => absurd hg (hunchecked ha)⟩
      · exact (h.inFlight n p hp).mono hu hold
    refine ⟨?_, fun n v hv => hu (h.sent n v hv), hpending _ ?_ ?_⟩
    all_goals
      rcases t.server.console.sessionMiddleware_cases request d with
        ⟨token, session, hcookie, hs, heq⟩ | heq
      all_goals rw [heq]
    · exact h.table.mono hu
    · have hopened : Tabled (t.used ++ request.texts ++ [d.token, t.server.console.newCsrf d])
          (t.server.console.openSession d false).sessions :=
        (h.table.mono (List.subset_append_left t.used request.texts)).opened hnew.token hnew.csrf
          hnew.ne
      rwa [List.append_assoc] at hopened
    · exact hu (h.table.used token session hs).1
    · simp
  | @authorised n p session hp hs ha =>
    refine ⟨h.table, h.sent, fun m q hq => ?_⟩
    rw [Dict.get?_set] at hq
    split_ifs at hq
    · cases hq
      have hpend := h.inFlight n p hp
      refine ⟨hpend.token, hpend.form, fun _ _ session' hs' => ?_⟩
      rw [hs] at hs'
      cases hs'
      exact ha
    · exact h.inFlight m q hq
  | @refused n p tokens hp ht =>
    refine ⟨h.table, fun m v hv => ?_, fun m q hq => h.inFlight m q (Dict.get?_of_remove hq).2⟩
    rcases mem_sent_append hv with hv | ⟨-, hv⟩
    · exact h.sent m v hv
    · rw [List.mem_singleton.1 (ht hv)]
      exact (h.inFlight n p hp).token
  | @finished n d p r c' hp ha hc =>
    refine ⟨(hc.tabled h.table hf).1, fun m v hv => ?_, fun m q hq =>
      (h.inFlight m q (Dict.get?_of_remove hq).2).mono hu hold⟩
    rcases mem_sent_append hv with hv | ⟨-, hv⟩
    · exact hu (h.sent m v hv)
    · rcases hc.shown hv with hv | ⟨rfl, -⟩
      · exact hu (h.tokensOf hp hv)
      · simp

/-! ## Outsiders -/

section
variable {P : Type} (browser author : ℕ → P) (a : P)

/-- The text was in a response to a browser of `a`. -/
def Transcript.SentTo (t : Transcript) (v : String) : Prop := ∃ n, browser n = a ∧ (n, v) ∈ t.sent

/-- What `a` may send without the password: a text that a session is known by
    only if `a` was sent it.  What its browsers send is its own; what it has
    other browsers send carries their cookies. -/
structure Transcript.Outside (t : Transcript) (request : HttpRequest) : Prop where
  own : browser t.server.arrivals = a → author t.server.arrivals = a
  cookie : browser t.server.arrivals = a → ∀ v ∈ request.cookie, t.server.console.Secret v →
    t.SentTo browser a v
  form : author t.server.arrivals = a → ∀ v ∈ request.form.values, t.server.console.Secret v →
    t.SentTo browser a v
  password : author t.server.arrivals = a →
    request.field "password" ≠ t.server.console.operatorPassword

/-- The requests of an outsider; of everybody else, any. -/
def Transcript.May (t : Transcript) : ServerPart → Prop
  | .arrive request _ => t.Outside browser author a request
  | .authorise _ | .finish _ _ => True

/-- No text of an operator's session is in `a`'s hands. -/
structure Transcript.Barred (t : Transcript) : Prop where
  sent : ∀ v, t.SentTo browser a v → ¬ t.server.console.Privileged v
  own : ∀ n p, t.server.inFlight.get? n = some p → browser n = a → author n = a
  token : ∀ n p, t.server.inFlight.get? n = some p → browser n = a →
    ¬ t.server.console.Privileged p.exchange.mandateToken
  form : ∀ n p, t.server.inFlight.get? n = some p → author n = a →
    ∀ v ∈ p.exchange.request.form.values, ¬ t.server.console.Privileged v
  password : ∀ n p, t.server.inFlight.get? n = some p → author n = a →
    p.exchange.field "password" ≠ t.server.console.operatorPassword

variable {browser author a}

omit [CsrfSerializer] in
/-- The form token of a session is as privileged as its own. -/
theorem Console.privileged_token {c : Console} {used : List String} {x : Exchange} {v : String}
    (ht : Tabled used c.sessions) (hv : v ∈ c.tokensOf x) (hp : c.Privileged v) :
    c.Privileged x.mandateToken := by
  rcases List.mem_cons.1 hv with rfl | hv
  · exact hp
  · split_ifs at hv with hempty
    · cases hv
    · rw [List.mem_singleton.1 hv] at hp
      rw [Console.csrfTokenFor] at hempty hp
      cases hs : c.getSession x with
      | none => simp [hs] at hempty
      | some session =>
        rw [hs] at hp
        obtain ⟨token, session', hs', ha, heq | heq⟩ := hp
        · exact absurd heq.symm (ht.token_ne _ _ _ _ hs' hs)
        · obtain rfl := ht.csrf_inj _ _ _ _ hs hs' heq
          exact ⟨_, session', hs', ha, .inl rfl⟩

omit [CsrfSerializer] in
theorem Transcript.sentTo_append {sent : List (ℕ × String)} {tokens : List String} {n : ℕ}
    {v : String} {server : Server} {used : List String}
    (h : Transcript.SentTo browser a ⟨server, sent ++ tokens.map (Prod.mk n), used⟩ v) :
    (∃ m, browser m = a ∧ (m, v) ∈ sent) ∨ browser n = a ∧ v ∈ tokens := by
  obtain ⟨m, hm, hv⟩ := h
  change (m, v) ∈ sent ++ tokens.map (Prod.mk n) at hv
  rcases mem_sent_append hv with hold | ⟨rfl, hnew⟩
  · exact .inl ⟨m, hm, hold⟩
  · exact .inr ⟨hm, hnew⟩

/-- A part of an outsider's keeps it out, as does one of anybody else. -/
theorem Transcript.Barred.run {t t' : Transcript} {part : ServerPart}
    (h : t.Barred browser author a) (ht : t.Tracked) (hf : t.Fresh part)
    (hm : t.May browser author a part) (hr : t.Runs part t') : t'.Barred browser author a := by
  have hold := hr.older ht.table hf
  cases hr with
  | arrive request d =>
    have hout : t.Outside browser author a request := hm
    have hpriv : ∀ v, (t.server.console.sessionMiddleware request d).2.Privileged v →
        t.server.console.Privileged v := by
      rintro v ⟨token, session, hs, ha, hv⟩
      rcases t.server.console.sessionMiddleware_cases request d with
        ⟨_, _, -, -, heq⟩ | heq
      · rw [heq] at hs
        exact ⟨token, session, hs, ha, hv⟩
      · rw [heq] at hs
        simp only [Dict.get?_set] at hs
        split_ifs at hs
        · cases hs
          cases ha
        · exact ⟨token, session, hs, ha, hv⟩
    have hpw : (t.server.console.sessionMiddleware request d).2.operatorPassword =
        t.server.console.operatorPassword := by
      rcases t.server.console.sessionMiddleware_cases request d with
        ⟨_, _, -, -, heq⟩ | heq <;> rw [heq]
    have hrequest : (t.server.console.sessionMiddleware request d).1.request = request := by
      rcases t.server.console.sessionMiddleware_cases request d with
        ⟨_, _, -, -, heq⟩ | heq <;> rw [heq]
    refine ⟨fun v hv hp => h.sent v hv (hpriv v hp), ?_, ?_, ?_, ?_⟩
    all_goals
      intro n p hp
      rw [Dict.get?_set] at hp
      split_ifs at hp with hn
    · subst hn
      exact hout.own
    · exact h.own n p hp
    · subst hn
      cases hp
      intro hb htoken
      have htoken := hpriv _ htoken
      rcases t.server.console.sessionMiddleware_cases request d with
        ⟨token, session, hcookie, hs, heq⟩ | heq
      · rw [heq] at htoken
        exact h.sent token (hout.cookie hb token hcookie ⟨token, session, hs, .inl rfl⟩) htoken
      · rw [heq] at htoken
        have hnew : t.server.console.Drawn (t.used ++ request.texts) d := hf
        obtain ⟨k, session, hs, -, hk⟩ := htoken
        refine hnew.token (List.mem_append_left _ ?_)
        rcases hk with hk | hk
        all_goals
          change d.token = _ at hk
          rw [hk]
        · exact (ht.table.used _ _ hs).1
        · exact (ht.table.used _ _ hs).2
    · exact fun hb hp' => h.token n p hp hb (hpriv _ hp')
    · subst hn
      cases hp
      intro hauthor v hv hp'
      rw [hrequest] at hv
      exact h.sent v (hout.form hauthor v hv (hpriv v hp').secret) (hpriv v hp')
    · exact fun hauthor v hv hp' => h.form n p hp hauthor v hv (hpriv v hp')
    · subst hn
      cases hp
      intro hauthor
      rw [hpw, Exchange.field, hrequest]
      exact hout.password hauthor
    · intro hauthor
      rw [hpw]
      exact h.password n p hp hauthor
  | @authorised n p session hp hs ha =>
    have hsame : ∀ m q, (t.server.inFlight.set n { p with authorised := true }).get? m = some q →
        ∃ q', t.server.inFlight.get? m = some q' ∧ q'.exchange = q.exchange := by
      intro m q hq
      rw [Dict.get?_set] at hq
      split_ifs at hq with hm
      · cases hq
        exact ⟨p, hm ▸ hp, rfl⟩
      · exact ⟨q, hq, rfl⟩
    refine ⟨h.sent, ?_, ?_, ?_, ?_⟩
    all_goals
      intro m q hq
      obtain ⟨q', hq', heq⟩ := hsame m q hq
    · exact h.own m q' hq'
    · exact heq ▸ h.token m q' hq'
    · exact heq ▸ h.form m q' hq'
    · exact heq ▸ h.password m q' hq'
  | @refused n p tokens hp hshown =>
    refine ⟨fun v hv => ?_, fun m q hq => h.own m q (Dict.get?_of_remove hq).2,
      fun m q hq => h.token m q (Dict.get?_of_remove hq).2,
      fun m q hq => h.form m q (Dict.get?_of_remove hq).2,
      fun m q hq => h.password m q (Dict.get?_of_remove hq).2⟩
    rcases Transcript.sentTo_append hv with hv | ⟨hb, hv⟩
    · exact h.sent v hv
    · rw [List.mem_singleton.1 (hshown hv)]
      exact h.token n p hp hb
  | @finished n d p r c' hp ha hc =>
    have hpriv : ∀ v ∈ t.used, c'.Privileged v → t.server.console.Privileged v :=
      fun v hv => hold.privileged hv
    refine ⟨fun v hv => ?_, fun m q hq => h.own m q (Dict.get?_of_remove hq).2,
      fun m q hq hb hq' => ?_, fun m q hq hauthor v hv hq' => ?_, fun m q hq hauthor => ?_⟩
    · rcases Transcript.sentTo_append hv with ⟨m, hb, hv⟩ | ⟨hb, hv⟩
      · exact fun hp' => h.sent v ⟨m, hb, hv⟩ (hpriv v (ht.sent m v hv) hp')
      · rcases hc.shown hv with hv | ⟨-, hpassword⟩
        · intro hp'
          have hp' := hpriv v (ht.tokensOf hp hv) hp'
          exact h.token n p hp hb (Console.privileged_token ht.table hv hp')
        · exact absurd hpassword (h.password n p hp (h.own n p hp hb))
    · have hq := (Dict.get?_of_remove hq).2
      exact h.token m q hq hb (hpriv _ (ht.inFlight m q hq).token hq')
    · have hq := (Dict.get?_of_remove hq).2
      exact h.form m q hq hauthor v hv (hpriv v ((ht.inFlight m q hq).form v hv) hq')
    · rw [hc.operatorPassword]
      exact h.password m q (Dict.get?_of_remove hq).2 hauthor

end

/-! ## The system -/

variable [Platform] [PyDecimal.CharForms]

/-- A server before its first request. -/
structure Transcript.Starts (t : Transcript) : Prop where
  sessions : t.server.console.sessions = .empty
  inFlight : t.server.inFlight = .empty
  sent : t.sent = []

/-- The parts of any number of requests, in any order, with new texts drawn. -/
def served (may : Transcript → ServerPart → Prop) : System Transcript where
  init := Transcript.Starts
  step t t' := ∃ part, t.Fresh part ∧ may t part ∧ t.run part = some t'

omit [Platform] [PyDecimal.CharForms] [CsrfSerializer] in
theorem Transcript.Starts.tracked {t : Transcript} (h : t.Starts) : t.Tracked := by
  refine ⟨?_, ?_, ?_⟩
  · rw [h.sessions]
    constructor <;> simp
  · simp [h.sent]
  · simp [h.inFlight]

theorem tracked_invariant (may : Transcript → ServerPart → Prop) :
    (served may).Invariant Transcript.Tracked where
  init _ h := h.tracked
  step _ _ _ h := by
    rintro ⟨part, hf, -, hr⟩
    exact h.run hf (Transcript.runs_of_run hr)

section
variable {P : Type} {browser author : ℕ → P} {a : P}

theorem barred_invariant :
    (served fun t part => t.May browser author a part).Invariant fun t =>
      t.Barred browser author a where
  init t h := by
    have hpriv : ∀ v, ¬ t.server.console.Privileged v := by
      rintro v ⟨token, session, hs, -⟩
      simp [h.sessions] at hs
    constructor
    · exact fun v _ => hpriv v
    all_goals simp [h.inFlight]
  step t t' ht h := by
    rintro ⟨part, hf, hm, hr⟩
    exact h.run ((tracked_invariant _).holds ht) hf hm (Transcript.runs_of_run hr)

/-- No request of an outsider's making, in any browser, changes anything but
    sessions, and none of the sessions it opens is an operator's. -/
theorem outsider_changes_nothing {t t' : Transcript} {part : ServerPart}
    (ht : (served fun t part => t.May browser author a part).Reachable t)
    (hf : t.Fresh part) (ha : author (part.number t.server) = a) (hr : t.run part = some t') :
    t'.server.console = { t.server.console with sessions := t'.server.console.sessions } ∧
      ∀ token session, t'.server.console.sessions.get? token = some session →
        session.authenticated = true → t.server.console.sessions.get? token = some session := by
  have htracked := (tracked_invariant _).holds ht
  have hbarred := barred_invariant.holds ht
  have hruns := Transcript.runs_of_run hr
  cases hruns with
  | arrive request d =>
    rcases t.server.console.sessionMiddleware_cases request d with
      ⟨token, session, -, -, heq⟩ | heq
    · rw [heq]
      exact ⟨rfl, fun _ _ hs _ => hs⟩
    · rw [heq]
      refine ⟨rfl, fun token session hs hauth => ?_⟩
      simp only [Dict.get?_set] at hs
      split_ifs at hs
      · cases hs
        cases hauth
      · exact hs
  | authorised | refused => exact ⟨rfl, fun _ _ hs _ => hs⟩
  | @finished n d p r c' hp hauthorised hc =>
    cases hc with
    | @operated _ _ session hx hs hne hform hop hshown =>
      -- the form token would be one of an operator's session
      have hguarded : p.exchange.request.endpoint.guarded = true := by
        cases he : p.exchange.request.endpoint <;> simp_all [Endpoint.operates, Endpoint.guarded]
      have hauth := (htracked.inFlight n p hp).checked hauthorised hguarded session hs
      refine absurd ⟨_, session, hs, hauth, .inr hform⟩ (hbarred.form n p hp ha _ ?_)
      exact Exchange.field_mem hne
    | loggedIn hx hs hne hform hpassword hshown =>
      exact absurd hpassword (hbarred.password n p hp ha)
    | loggedOut hx hshown =>
      exact ⟨rfl, fun _ _ hs _ => (Dict.get?_of_remove hs).2⟩
    | unchanged hx hshown => exact ⟨rfl, fun _ _ hs _ => hs⟩

end

end

/-! ## A server with an operator and an outsider -/

section
open Sample
attribute [local instance] Sample.platform PyDecimal.CharForms.ascii

/-- A serializer that joins its arguments and accepts every token. -/
@[reducible] def Sample.serializer : CsrfSerializer where
  dumps secret payload _ := secret ++ "." ++ payload
  loads _ _ _ _ := true

attribute [local instance] Sample.serializer

/-- A console without deals. -/
def Sample.console : Console :=
  { store := .empty, signer, operatorId := "operator", operatorPassword := "open sesame"
    sessionSecret := "s", sessions := .empty, dealIds := [], dealRecords := .empty
    screen := ⟨none, "questions"⟩, screenClaims := .empty }

def Sample.transcript : Transcript :=
  { server := { console := console, arrivals := 0, inFlight := .empty }, sent := [], used := [] }

/-- The texts of a new session. -/
def Sample.draw (c : Char) : Console.SessionDraw :=
  { token := String.ofList ['T', c], payload := String.ofList ['P', c], time := 0 }

/-- The time as the console's clock gives it. -/
def Sample.clock : Timestamp := ⟨"2026-01-02T00:00:00+00:00", 63902908800000000, by decide⟩

/-- Identifiers that start with `c`. -/
def Sample.newIds (c : Char) (n : ℕ) : String :=
  String.ofList (c :: List.replicate 24 '0' ++ [Nat.digitChar n])

def Sample.draws (c : Char) : Console.Draws :=
  { session := draw c, nowIso := clock.text, time := 0, newUlid := newIds c, eventIds := ids }

/-- A form with these fields. -/
def Sample.formOf (fields : List (String × String)) : Dict String String :=
  fields.foldl (fun form f => form.set f.1 f.2) .empty

instance (c : Console) (used : List String) (d : Console.SessionDraw) :
    Decidable (c.Drawn used d) :=
  decidable_of_iff (d.token ∉ used ∧ c.newCsrf d ∉ used ∧ d.token ≠ c.newCsrf d)
    ⟨fun h => ⟨h.1, h.2.1, h.2.2⟩, fun h => ⟨h.token, h.csrf, h.ne⟩⟩

instance (t : Transcript) (part : ServerPart) : Decidable (t.Fresh part) :=
  match part with
  | .arrive _ d => inferInstanceAs (Decidable (t.server.console.Drawn _ d))
  | .authorise _ => inferInstanceAs (Decidable True)
  | .finish _ d => inferInstanceAs (Decidable (t.server.console.Drawn t.used d.session))

/-- The transcript after a part that draws new texts. -/
def Sample.advance (t : Transcript) (part : ServerPart) : Option Transcript :=
  if t.Fresh part then t.run part else none

/-- The transcript after some parts. -/
def Sample.play (parts : List ServerPart) : Transcript :=
  (parts.foldlM advance transcript).getD transcript

theorem Sample.step_of_advance {may : Transcript → ServerPart → Prop} {t t' : Transcript}
    {part : ServerPart} (h : advance t part = some t') (hm : may t part) :
    (served may).step t t' := by
  unfold advance at h
  split_ifs at h with hf
  exact ⟨part, hf, hm, h⟩

theorem Sample.advance_play {parts : List ServerPart} {part : ServerPart}
    (h : ((parts ++ [part]).foldlM advance transcript).isSome = true) :
    advance (play parts) part = some (play (parts ++ [part])) := by
  obtain ⟨t, ht⟩ := Option.isSome_iff_exists.1 h
  rw [play, play, ht]
  rw [List.foldlM_append] at ht
  obtain ⟨t₁, h₁, ht⟩ := Option.bind_eq_some_iff.1 ht
  rw [h₁]
  obtain ⟨t₂, h₂, ht⟩ := Option.bind_eq_some_iff.1 ht
  cases ht
  exact h₂

/-- The outsider asks for the login page. -/
def Sample.asking : List ServerPart :=
  [.arrive ⟨.loginGet, none, .empty⟩ (draw '0'), .finish 0 (draws '1')]

/-- A login with a password, in the session of the login page. -/
def Sample.login (password : String) : HttpRequest :=
  ⟨.loginPost, some "T0", formOf [("csrf_token", "s.P0"), ("password", password)]⟩

/-- The outsider has guessed a password. -/
def Sample.guessing : List ServerPart := asking ++ [.arrive (login "guess") (draw '2')]

/-- The one who knows no password sends everything. -/
abbrev Sample.alone : System Transcript :=
  served fun t part => t.May (fun _ => ()) (fun _ => ()) () part

theorem Sample.play_nil_starts : (play []).Starts := ⟨rfl, rfl, rfl⟩

theorem Sample.guessing_reachable : alone.Reachable (play guessing) := by
  have hout : (play []).Outside (fun _ => ()) (fun _ => ()) () ⟨.loginGet, none, .empty⟩ :=
    ⟨fun _ => rfl, fun _ => by simp, fun _ => by simp, fun _ => by decide +kernel⟩
  have hget : advance (play []) (.arrive ⟨.loginGet, none, .empty⟩ (draw '0')) =
      some (play ([] ++ [.arrive ⟨.loginGet, none, .empty⟩ (draw '0')])) :=
    advance_play (by decide +kernel)
  have h₁ : alone.Reachable (play [.arrive ⟨.loginGet, none, .empty⟩ (draw '0')]) :=
    (System.Reachable.init play_nil_starts).step (step_of_advance hget hout)
  have hshow : advance (play [.arrive ⟨.loginGet, none, .empty⟩ (draw '0')])
      (.finish 0 (draws '1')) = some (play asking) := advance_play (by decide +kernel)
  have h₂ : alone.Reachable (play asking) := h₁.step (step_of_advance hshow trivial)
  have hlogin : advance (play asking) (.arrive (login "guess") (draw '2')) =
      some (play guessing) := advance_play (by decide +kernel)
  have hsent : ∀ v ∈ ["T0", "s.P0"], (play asking).SentTo (fun _ => ()) () v := by
    have hall : (play asking).sent = [(0, "T0"), (0, "s.P0")] := by decide +kernel
    intro v hv
    refine ⟨0, rfl, ?_⟩
    rw [hall]
    simpa using hv
  have hsecret : ¬ (play asking).server.console.Secret "guess" := by
    have hsessions : (play asking).server.console.sessions.entries = [("T0", ⟨"s.P0", false⟩)] := by
      decide +kernel
    rintro ⟨k, session, hs, hk⟩
    have hmem := Dict.mem_of_getEntries _ hs
    rw [hsessions, List.mem_singleton] at hmem
    cases hmem
    revert hk
    decide
  refine h₂.step (step_of_advance hlogin ⟨fun _ => rfl, fun _ v hv _ => ?_, fun _ v hv hs => ?_,
    fun _ => by decide +kernel⟩)
  · cases hv
    exact hsent _ (by simp)
  · have hvalues : (login "guess").form.values = ["s.P0", "guess"] := by decide +kernel
    rw [hvalues] at hv
    rcases List.mem_cons.1 hv with rfl | hv
    · exact hsent _ (by simp)
    · rw [List.mem_singleton.1 hv] at hs
      exact absurd hs hsecret

/-- A wrong password changes nothing. -/
theorem outsider_changes_nothing_guess :
    (play (guessing ++ [.finish 1 (draws '3')])).server.console =
      { (play guessing).server.console with
        sessions := (play (guessing ++ [.finish 1 (draws '3')])).server.console.sessions } := by
  have hfin : advance (play guessing) (.finish 1 (draws '3')) =
      some (play (guessing ++ [.finish 1 (draws '3')])) := advance_play (by decide +kernel)
  unfold advance at hfin
  split_ifs at hfin with hf
  exact (outsider_changes_nothing guessing_reachable hf rfl hfin).1

end

/-! ## Logout -/

/-- The token is in use, and no session has it. -/
structure Transcript.Dropped (token : String) (t : Transcript) : Prop where
  used : token ∈ t.used
  gone : t.server.console.sessions.get? token = none

section
variable [CsrfSerializer]

theorem Transcript.Dropped.run {token : String} {t t' : Transcript} {part : ServerPart}
    (h : t.Dropped token) (ht : t.Tracked) (hf : t.Fresh part) (hr : t.Runs part t') :
    t'.Dropped token := by
  refine ⟨hr.used_subset h.used, ?_⟩
  cases hs : t'.server.console.sessions.get? token with
  | none => rfl
  | some session =>
    have hold := hr.older ht.table hf token session hs (.inl h.used)
    rw [h.gone] at hold
    cases hold

/-- The last part of a logout drops its session. -/
theorem Transcript.Runs.dropped {t t' : Transcript} {n : ℕ} {d : Console.Draws} {p : Pending}
    (hr : t.Runs (.finish n d) t') (ht : t.Tracked) (hp : t.server.inFlight.get? n = some p)
    (hx : p.exchange.request.endpoint = .logout) : t'.Dropped p.exchange.mandateToken := by
  have hu := hr.used_subset (ht.inFlight n p hp).token
  cases hr with
  | @finished _ _ q r c' hq ha hc =>
    obtain rfl : p = q := Option.some.inj (hp.symm.trans hq)
    refine ⟨hu, ?_⟩
    cases hc with
    | operated hop => simp [hx, Endpoint.operates] at hop
    | loggedIn hlogin => simp [hx] at hlogin
    | loggedOut => simp [Console.destroySession, Dict.get?_remove]
    | unchanged hl => exact absurd hx hl

/-- The request that arrived as number `n` has a session of its own, which is
    anonymous or gone. -/
structure Transcript.Apart (n : ℕ) (x : Exchange) (csrf : String) (t : Transcript) : Prop where
  arrived : n < t.server.arrivals
  used : x.mandateToken ∈ t.used
  session : ∀ session, t.server.console.getSession x = some session → session = ⟨csrf, false⟩
  inFlight : ∀ p, t.server.inFlight.get? n = some p → p.exchange = x

theorem Transcript.Apart.run {n : ℕ} {x : Exchange} {csrf : String} {t t' : Transcript}
    {part : ServerPart} (h : t.Apart n x csrf) (ht : t.Tracked) (hf : t.Fresh part)
    (hr : t.Runs part t') : t'.Apart n x csrf := by
  have hold := hr.older ht.table hf
  refine ⟨?_, hr.used_subset h.used, fun session hs => ?_, ?_⟩
  · cases hr with
    | arrive => exact h.arrived.trans (Nat.lt_succ_self _)
    | authorised | refused | finished => exact h.arrived
  · exact h.session session (hold x.mandateToken session hs (.inl h.used))
  · cases hr with
    | arrive request d =>
      intro p hp
      rw [Dict.get?_set_ne _ _ h.arrived.ne] at hp
      exact h.inFlight p hp
    | @authorised m q session hq hs ha =>
      intro p hp
      rw [Dict.get?_set] at hp
      split_ifs at hp with hm
      · cases hp
        exact h.inFlight q (hm ▸ hq)
      · exact h.inFlight p hp
    | refused | finished => exact fun p hp => h.inFlight p (Dict.get?_of_remove hp).2

/-- A later part of the request that arrived as number `n`. -/
def ServerPart.Continues (n : ℕ) (part : ServerPart) : Prop :=
  part = .authorise n ∨ ∃ d, part = .finish n d

/-- Without a session a request ends as it began. -/
theorem Console.Finished.of_none {c c' : Console} {x : Exchange} {d : Console.Draws}
    {r : HttpResponse} (h : c.Finished x d (r, c')) (hs : c.getSession x = none) : c' = c := by
  cases h with
  | operated _ hs' => simp [hs] at hs'
  | loggedIn _ hs' => simp [hs] at hs'
  | loggedOut =>
    have hnone : c.sessions.get? x.mandateToken = none := hs
    simp only [Console.destroySession, Dict.remove_of_none hnone]
  | unchanged => rfl

/-- A request apart, whose form was written before its session was drawn,
    changes nothing. -/
theorem Transcript.Apart.unchanged {n : ℕ} {x : Exchange} {csrf : String} {t t' : Transcript}
    {part : ServerPart} (h : t.Apart n x csrf) (ht : t.Tracked)
    (hform : csrf ∉ x.request.form.values) (hn : part.Continues n) (hr : t.Runs part t') :
    t'.server.console = t.server.console := by
  rcases hn with rfl | ⟨d, rfl⟩
  · cases hr with
    | authorised | refused => rfl
  · cases hr with
    | @finished _ _ p r c' hp ha hc =>
      have hx := h.inFlight p hp
      cases hs : t.server.console.getSession p.exchange with
      | none => exact hc.of_none hs
      | some session =>
        have hsession := h.session session (hx ▸ hs)
        -- the form has another token than the session
        have hother : x.field "csrf_token" = session.csrfToken → x.field "csrf_token" = "" := by
          intro heq
          by_contra hne
          refine hform ?_
          have hmem := Exchange.field_mem hne
          rw [heq, hsession] at hmem
          exact hmem
        cases hc with
        | operated _ hs' hne hf =>
          obtain rfl := Option.some.inj (hs.symm.trans hs')
          exact absurd (hother (hx ▸ hf)) (hx ▸ hne)
        | loggedIn _ hs' hne hf =>
          obtain rfl := Option.some.inj (hs.symm.trans hs')
          exact absurd (hother (hx ▸ hf)) (hx ▸ hne)
        | loggedOut hlogout =>
          have hauth := (ht.inFlight n p hp).checked ha (by rw [hlogout]; rfl) session hs
          rw [hsession] at hauth
          cases hauth
        | unchanged => rfl

/-- A cookie without a session is answered with a new anonymous one. -/
theorem Console.sessionMiddleware_of_none {c : Console} {request : HttpRequest} {token : String}
    (hc : request.cookie = some token) (hs : c.sessions.get? token = none)
    (d : Console.SessionDraw) :
    c.sessionMiddleware request d = (⟨request, d.token⟩, c.newAnonymousSession d) := by
  have hnone : request.cookie.filter (fun token => (c.sessions.get? token).isSome) = none := by
    rw [hc, Option.filter_some, if_neg (by simp [hs])]
  rw [Console.sessionMiddleware, hnone]

/-- A request that arrives with a dropped token is apart. -/
theorem Transcript.Dropped.arrive {token : String} {t t' : Transcript} {request : HttpRequest}
    {d : Console.SessionDraw} (h : t.Dropped token) (hc : request.cookie = some token)
    (hr : t.Runs (.arrive request d) t') :
    t'.server.console = t.server.console.newAnonymousSession d ∧
      t'.Apart t.server.arrivals ⟨request, d.token⟩ (t.server.console.newCsrf d) := by
  have hmiddleware := Console.sessionMiddleware_of_none hc h.gone d
  cases hr with
  | arrive =>
    rw [hmiddleware]
    refine ⟨rfl, Nat.lt_succ_self _, by simp, fun session hs => ?_, fun p hp => ?_⟩
    · exact (Option.some.inj ((Dict.get?_set_self ..).symm.trans hs)).symm
    · rw [← Option.some.inj ((Dict.get?_set_self ..).symm.trans hp)]

variable [Platform] [PyDecimal.CharForms]

theorem Transcript.Dropped.later {may : Transcript → ServerPart → Prop} {token : String}
    {t t' : Transcript} (ht : (served may).Reachable t) (h : t.Dropped token)
    (hrun : Relation.ReflTransGen (served may).step t t') : t'.Dropped token := by
  induction hrun with
  | refl => exact h
  | tail hrun hs ih =>
    obtain ⟨part, hfresh, -, hr⟩ := hs
    exact ih.run ((tracked_invariant _).holds (ht.trans hrun)) hfresh (Transcript.runs_of_run hr)

theorem Transcript.Apart.later {may : Transcript → ServerPart → Prop} {n : ℕ} {x : Exchange}
    {csrf : String} {t t' : Transcript} (ht : (served may).Reachable t) (h : t.Apart n x csrf)
    (hrun : Relation.ReflTransGen (served may).step t t') : t'.Apart n x csrf := by
  induction hrun with
  | refl => exact h
  | tail hrun hs ih =>
    obtain ⟨part, hfresh, -, hr⟩ := hs
    exact ih.run ((tracked_invariant _).holds (ht.trans hrun)) hfresh (Transcript.runs_of_run hr)

/-- After a logout no request with that session's token changes anything, not
    even one whose login was checked before the logout; and a request that
    arrives with the token opens an anonymous session and changes nothing else,
    whatever runs between its parts. -/
theorem logout_is_final {may : Transcript → ServerPart → Prop} {t t₁ t₂ : Transcript}
    {n : ℕ} {d : Console.Draws} {p : Pending} (ht : (served may).Reachable t)
    (hp : t.server.inFlight.get? n = some p) (hx : p.exchange.request.endpoint = .logout)
    (hf : t.Fresh (.finish n d)) (hmay : may t (.finish n d))
    (hout : t.run (.finish n d) = some t₁)
    (hrun : Relation.ReflTransGen (served may).step t₁ t₂) :
    (∀ m q part t₃, t₂.server.inFlight.get? m = some q →
      q.exchange.mandateToken = p.exchange.mandateToken → part.Continues m →
        t₂.run part = some t₃ → t₃.server.console = t₂.server.console) ∧
    ∀ request d' t₃, request.cookie = some p.exchange.mandateToken →
      t₂.Fresh (.arrive request d') → may t₂ (.arrive request d') →
        t₂.run (.arrive request d') = some t₃ →
          t₃.server.console = t₂.server.console.newAnonymousSession d' ∧
          ∀ t₄ part t₅, Relation.ReflTransGen (served may).step t₃ t₄ →
            part.Continues t₂.server.arrivals → t₄.run part = some t₅ →
              t₅.server.console = t₄.server.console := by
  have ht₁ : (served may).Reachable t₁ := ht.step ⟨_, hf, hmay, hout⟩
  have ht₂ : (served may).Reachable t₂ := ht₁.trans hrun
  have hdropped : t₂.Dropped p.exchange.mandateToken := Transcript.Dropped.later ht₁
    ((Transcript.runs_of_run hout).dropped ((tracked_invariant _).holds ht) hp hx) hrun
  constructor
  · intro m q part t₃ hq hsame hm hpart
    have hnone : t₂.server.console.getSession q.exchange = none := by
      rw [Console.getSession, hsame]
      exact hdropped.gone
    have hruns := Transcript.runs_of_run hpart
    rcases hm with rfl | ⟨d', rfl⟩
    · cases hruns with
      | authorised | refused => rfl
    · cases hruns with
      | @finished _ _ q' r c' hq' ha hc =>
        obtain rfl : q = q' := Option.some.inj (hq.symm.trans hq')
        exact hc.of_none hnone
  · intro request d' t₃ hcookie hfresh hmay' harrive
    obtain ⟨hopened, hapart⟩ := hdropped.arrive hcookie (Transcript.runs_of_run harrive)
    refine ⟨hopened, fun t₄ part t₅ hrun' hn hpart => ?_⟩
    have ht₃ : (served may).Reachable t₃ := ht₂.step ⟨_, hfresh, hmay', harrive⟩
    have hnew : t₂.server.console.Drawn (t₂.used ++ request.texts) d' := hfresh
    have hform : t₂.server.console.newCsrf d' ∉ request.form.values := by
      intro hmem
      refine hnew.csrf (List.mem_append_right _ ?_)
      simp [HttpRequest.texts, hmem]
    exact (Transcript.Apart.later ht₃ hapart hrun').unchanged
      ((tracked_invariant _).holds (ht₃.trans hrun')) hform hn (Transcript.runs_of_run hpart)

end

section
open Sample
attribute [local instance] Sample.platform PyDecimal.CharForms.ascii Sample.serializer

/-- The operator logs in, sends a logout and then an operation, and the check
    of its login passes. -/
def Sample.crossing : List ServerPart :=
  asking ++ [
    .arrive (login "open sesame") (draw '2'),
    .finish 1 (draws '3'),
    .arrive ⟨.logout, some "T3", .empty⟩ (draw '4'),
    .arrive ⟨.newDeal, some "T3", formOf [("csrf_token", "s.P3")]⟩ (draw '5'),
    .authorise 2,
    .authorise 3]

theorem Sample.play_reachable {parts : List ServerPart} :
    (parts.foldlM advance transcript).isSome = true →
      (served fun _ _ => True).Reachable (play parts) := by
  induction parts using List.reverseRecOn with
  | nil => exact fun _ => .init play_nil_starts
  | append_singleton parts part ih =>
    intro h
    refine (ih ?_).step (step_of_advance (advance_play h) trivial)
    rw [List.foldlM_append] at h
    cases ht : parts.foldlM advance transcript with
    | none => simp [ht] at h
    | some t => rfl

/-- A request with the cookie of the session that was logged out. -/
def Sample.late : HttpRequest :=
  ⟨.newDeal, some "T3", formOf [("csrf_token", "s.P3")]⟩

/-- The operation in flight finds no session after the logout, and one that is
    sent later is refused in an anonymous session. -/
theorem logout_is_final_crossing :
    (play (crossing ++ [.finish 2 (draws '6')] ++ [.finish 3 (draws '7')])).server.console =
      (play (crossing ++ [.finish 2 (draws '6')])).server.console ∧
    (play (crossing ++ [.finish 2 (draws '6')] ++ [.arrive late (draw '8')] ++
        [.authorise 4])).server.console =
      (play (crossing ++ [.finish 2 (draws '6')])).server.console.newAnonymousSession (draw '8') := by
  have hout : advance (play crossing) (.finish 2 (draws '6')) =
      some (play (crossing ++ [.finish 2 (draws '6')])) := advance_play (by decide +kernel)
  have hfin : advance (play (crossing ++ [.finish 2 (draws '6')])) (.finish 3 (draws '7')) =
      some (play (crossing ++ [.finish 2 (draws '6')] ++ [.finish 3 (draws '7')])) :=
    advance_play (by decide +kernel)
  have harrive : advance (play (crossing ++ [.finish 2 (draws '6')])) (.arrive late (draw '8')) =
      some (play (crossing ++ [.finish 2 (draws '6')] ++ [.arrive late (draw '8')])) :=
    advance_play (by decide +kernel)
  have hrefuse : advance (play (crossing ++ [.finish 2 (draws '6')] ++ [.arrive late (draw '8')]))
      (.authorise 4) = some (play (crossing ++ [.finish 2 (draws '6')] ++
        [.arrive late (draw '8')] ++ [.authorise 4])) := advance_play (by decide +kernel)
  have hcrossing : (crossing.foldlM advance transcript).isSome = true := by decide +kernel
  unfold advance at hout hfin harrive hrefuse
  split_ifs at hout hfin harrive hrefuse with hf hf₁ hf₂
  obtain ⟨hin, hlate⟩ := logout_is_final (p := ⟨⟨⟨.logout, some "T3", .empty⟩, "T3"⟩, true⟩)
    (play_reachable hcrossing) rfl rfl hf trivial hout .refl
  obtain ⟨hopened, hrest⟩ := hlate late (draw '8') _ rfl hf₂ trivial harrive
  refine ⟨hin 3 ⟨⟨⟨.newDeal, some "T3", formOf [("csrf_token", "s.P3")]⟩, "T3"⟩, true⟩ _ _ rfl rfl
    (.inr ⟨_, rfl⟩) hfin, ?_⟩
  rw [← hopened]
  exact hrest _ _ _ .refl (.inl rfl) hrefuse

end

end Mandate
