import PolicyEngine.Server.PublishCheck
import PolicyEngine.Storage.Policies

namespace PolicyEngine.Server

open Function PolicyEngine.Go PolicyEngine.Parser PolicyEngine.Storage PolicyEngine.Trace

/-- `json.Marshal`, of the parser's errors and of a compiled policy. -/
structure Json where
  errors : List String → String
  node : PolicyNode → Except String String

variable (letter : Char → Bool) (json : Json)

/-- A text that `handlePublishPolicy` has read and compiled. -/
structure Compiled (policyId : String) where
  policyText : String
  node : PolicyNode
  astJson : String
  accepted : publishCheck letter policyId policyText = .accepted node
  marshalled : json.node node = .ok astJson

inductive Call
  | update (policyId policyText : String)
  | publish (policyId : String)
  | delete (policyId : String)

inductive Request
  | update (policyId policyText : String)
  | publish (policyId : String) (compiled : Compiled letter json policyId)
  | delete (policyId : String)

def compileForPublish (policyId policyText : String) :
    Except String (Compiled letter json policyId) :=
  match haccepted : publishCheck letter policyId policyText with
  | .parseErrors errors =>
    .error ("\x7b\"status\":\"COMPILE_ERROR\",\"errors\":" ++ json.errors errors ++ "\x7d")
  | .panics => .error "runtime error: index out of range [0] with length 0"
  | .compilerError err => .error err
  | .accepted node =>
    match hjson : json.node node with
    | .error err => .error ("Lỗi serialize AST: " ++ err)
    | .ok astJson => .ok ⟨policyText, node, astJson, haccepted, hjson⟩

variable {letter json} in
theorem policyText_of_compileForPublish {policyId policyText : String}
    {compiled : Compiled letter json policyId}
    (h : compileForPublish letter json policyId policyText = .ok compiled) :
    compiled.policyText = policyText := by
  unfold compileForPublish at h
  split at h
  · cases h
  · cases h
  · cases h
  · split at h
    · cases h
    · cases h
      rfl

namespace Request

variable {letter json}

def policyId : Request letter json → String
  | .update policyId _ => policyId
  | .publish policyId _ => policyId
  | .delete policyId => policyId

def mutate : Request letter json → Policies → Except String (Policies × Bool)
  | .update policyId policyText => updatePolicy policyId policyText
  | .publish policyId compiled => publishPolicy policyId compiled.astJson
  | .delete policyId => deletePolicy policyId

theorem mutate_of_missing {r : Request letter json} {policies : Policies}
    (h : policies r.policyId = none) :
    r.mutate policies = .error (errPolicyNotFound ++ ": " ++ r.policyId) := by
  cases r <;> exact transact_of_missing h

theorem mutate_eq_ok {r : Request letter json} {policies policies' : Policies} {advances : Bool}
    (h : r.mutate policies = .ok (policies', advances)) :
    ∃ before after, policies r.policyId = some before ∧
      policies' = Function.update policies r.policyId after ∧
      ∀ row, after = some row → row.status = .active →
        ∃ compiled, r = .publish r.policyId compiled ∧ row.policyText = before.policyText ∧
          row.astJson = some compiled.astJson := by
  cases r with
  | update =>
    obtain ⟨before, hbefore, hafter⟩ := transact_eq_ok h
    refine ⟨before, _, hbefore, hafter, ?_⟩
    intro _ hrow hactive
    cases hrow
    cases hactive
  | publish _ compiled =>
    obtain ⟨before, hbefore, hafter⟩ := transact_eq_ok h
    refine ⟨before, _, hbefore, hafter, ?_⟩
    intro _ hrow _
    cases hrow
    exact ⟨compiled, rfl, rfl, rfl⟩
  | delete =>
    obtain ⟨before, hbefore, hafter⟩ := transact_eq_ok h
    refine ⟨before, _, hbefore, hafter, ?_⟩
    intro _ hrow
    cases hrow

end Request

/-- The handlers' part up to the call of the storage. A publication reads its
row here, by `GetPolicy`. -/
def handle (policies : Policies) : Call → Except String (Request letter json)
  | .update policyId policyText =>
    if policyId = "" then .error "Thiếu policy_id trong path"
    else if Text.trimSpace policyText = "" then .error "PolicyText không được để trống"
    else .ok (.update policyId policyText)
  | .publish policyId =>
    if policyId = "" then .error "Thiếu policy_id trong path"
    else
      match policies policyId with
      | none => .error ("Không tìm thấy policy: " ++ errPolicyNotFound ++ ": " ++ policyId)
      | some row => (compileForPublish letter json policyId row.policyText).map (.publish policyId)
  | .delete policyId =>
    if policyId = "" then .error "Thiếu policy_id trong path" else .ok (.delete policyId)

variable {letter json} in
theorem policyText_of_handle {policies : Policies} {call : Call} {policyId : String}
    {compiled : Compiled letter json policyId} {row : PolicyRow}
    (h : handle letter json policies call = .ok (.publish policyId compiled))
    (hrow : policies policyId = some row) : row.policyText = compiled.policyText := by
  cases call with
  | update =>
    simp only [handle] at h
    split_ifs at h
    cases h
  | delete =>
    simp only [handle] at h
    split_ifs at h
    cases h
  | publish id =>
    simp only [handle] at h
    split_ifs at h
    split at h
    · cases h
    · rename_i read hread
      cases hcompile : compileForPublish letter json id read.policyText with
      | error => simp [hcompile, Except.map] at h
      | ok =>
        simp only [hcompile, Except.map, Except.ok.injEq] at h
        cases h
        rw [policyText_of_compileForPublish hcompile]
        rw [hread] at hrow
        exact congrArg PolicyRow.policyText (Option.some.inj hrow).symm

structure Site (ι ρ : Type) where
  fence : World ι ρ
  policies : Policies
  request : ι → Option (Request letter json)

inductive SiteEvent (ι ρ : Type)
  | create (policyId policyText : String)
  | receive (i : ι) (call : Call)
  | fence (e : Event ι ρ)
  | mutate (i : ι) (fate : Fate)

namespace Site

variable {letter json} {ι ρ : Type} [DecidableEq ι] [DecidableEq ρ]

-- Whether `SetERPPolicyFence` has been called.
variable (fenced : Bool) (tenant : String)

/-- A handler's transaction has a step of its own; the others that pass the
fence change roles, not policies. -/
def permits (s : Site letter json ι ρ) : Event ι ρ → Bool
  | .begin _ => fenced
  | .mutate i _ => (s.request i).isNone
  | _ => true

/-- `mutate` runs behind the fence, or at once where there is none. -/
def atMutation : Phase ι → Bool
  | .fenced => fenced
  | .idle => !fenced
  | _ => false

def settle (w : World ι ρ) (i : ι) (m : Mutation) : World ι ρ :=
  if fenced then w.mutate i m
  else
    { w.goto i (.returned (m.error.elim (.ok ()) .error)) with
      pdp := if m.advances then w.pdp + 1 else w.pdp }

def step (s : Site letter json ι ρ) : SiteEvent ι ρ → Option (Site letter json ι ρ)
  | .create policyId policyText =>
    (createPolicy policyId policyText s.policies).map fun policies ↦ { s with policies := policies }
  | .receive i call =>
    match s.fence.phase i, s.request i with
    | .idle, none =>
      match handle letter json s.policies call with
      | .ok request => some { s with request := update s.request i (some request) }
      | .error err => some { s with fence := s.fence.goto i (.returned (.error err)) }
    | _, _ => none
  | .fence e =>
    if s.permits fenced e then (s.fence.step tenant e).map fun w ↦ { s with fence := w } else none
  | .mutate i fate =>
    match s.request i with
    | none => none
    | some request =>
      if atMutation fenced (s.fence.phase i) then
        let (policies, m) := fate.outcome s.policies (request.mutate s.policies)
        some { s with policies := policies, fence := settle fenced s.fence i m }
      else none

/-- The text of every active row was compiled by a publication, and the row has
what it was compiled to. -/
def Validated (s : Site letter json ι ρ) : Prop :=
  ∀ policyId row, s.policies policyId = some row → row.status = .active →
    ∃ i compiled, s.request i = some (.publish policyId compiled) ∧
      compiled.policyText = row.policyText ∧ row.astJson = some compiled.astJson

/-- A publication that commits finds the text it has read. -/
def ReadsCurrent (s : Site letter json ι ρ) (e : SiteEvent ι ρ) : Prop :=
  ∀ i fate policyId compiled row, e = .mutate i fate → fate.commits = true →
    s.request i = some (.publish policyId compiled) → s.policies policyId = some row →
      row.policyText = compiled.policyText

variable {fenced tenant} {s t : Site letter json ι ρ} {e : SiteEvent ι ρ}

theorem step_cases (h : s.step fenced tenant e = some t) :
    (∀ i r, s.request i = some r → t.request i = some r) ∧
      (t.policies = s.policies ∨
        (∃ policyId policyText, createPolicy policyId policyText s.policies = some t.policies) ∨
        ∃ i fate r advances, e = .mutate i fate ∧ fate.commits = true ∧ s.request i = some r ∧
          r.mutate s.policies = .ok (t.policies, advances)) := by
  cases e with
  | create policyId policyText =>
    obtain ⟨_, hcreate, rfl⟩ := Option.map_eq_some_iff.mp h
    exact ⟨fun _ _ hr ↦ hr, .inr (.inl ⟨policyId, policyText, hcreate⟩)⟩
  | receive i =>
    simp only [step] at h
    split at h
    · rename_i hnone
      split at h
      · cases h
        refine ⟨?_, .inl rfl⟩
        intro j _ hr
        have hj : j ≠ i := fun hj ↦ by simp [hj, hnone] at hr
        exact (update_of_ne hj _ _).trans hr
      · cases h
        exact ⟨fun _ _ hr ↦ hr, .inl rfl⟩
    · cases h
  | fence =>
    simp only [step] at h
    split at h
    · obtain ⟨_, -, rfl⟩ := Option.map_eq_some_iff.mp h
      exact ⟨fun _ _ hr ↦ hr, .inl rfl⟩
    · cases h
  | mutate i fate =>
    simp only [step] at h
    split at h
    · cases h
    · rename_i r hr
      split at h
      · cases h
        refine ⟨fun _ _ hr ↦ hr, ?_⟩
        obtain hsame | ⟨advances, hcommits, hok⟩ :=
          fate.outcome_cases s.policies (r.mutate s.policies)
        · exact .inl hsame
        · exact .inr (.inr ⟨i, fate, r, advances, rfl, hcommits, hr, hok⟩)
      · cases h

omit [DecidableEq ι] [DecidableEq ρ] in
theorem Validated.row (h : s.Validated) (hrequest : ∀ i r, s.request i = some r → t.request i = some r)
    {policyId : String} {row : PolicyRow} (hrow : s.policies policyId = some row)
    (hactive : row.status = .active) :
    ∃ i compiled, t.request i = some (.publish policyId compiled) ∧
      compiled.policyText = row.policyText ∧ row.astJson = some compiled.astJson := by
  obtain ⟨i, compiled, hi, htext, hast⟩ := h policyId row hrow hactive
  exact ⟨i, compiled, hrequest i _ hi, htext, hast⟩

theorem Validated.step (h : s.Validated) (hcond : s.ReadsCurrent e)
    (hstep : s.step fenced tenant e = some t) : t.Validated := by
  obtain ⟨hrequest, hpolicies⟩ := step_cases hstep
  intro policyId row hrow hactive
  obtain hsame | ⟨newId, _, hcreate⟩ | ⟨i, fate, r, _, he, hcommits, hr, hok⟩ :=
    hpolicies
  · exact h.row hrequest (hsame ▸ hrow) hactive
  · unfold createPolicy at hcreate
    split at hcreate
    · rw [← Option.some.inj hcreate] at hrow
      by_cases hid : policyId = newId
      · subst hid
        rw [update_self] at hrow
        cases hrow
        cases hactive
      · rw [update_of_ne hid] at hrow
        exact h.row hrequest hrow hactive
    · cases hcreate
  · obtain ⟨before, _, hbefore, hwritten, hafter⟩ := Request.mutate_eq_ok hok
    rw [hwritten] at hrow
    by_cases hid : policyId = r.policyId
    · subst hid
      rw [update_self] at hrow
      obtain ⟨compiled, hpublish, htext, hast⟩ := hafter row hrow hactive
      rw [hpublish] at hr
      -- The row keeps the text it had before, which the publication has compiled.
      have hread := hcond i fate _ compiled before he hcommits hr hbefore
      exact ⟨i, compiled, hrequest i _ hr, hread.symm.trans htext.symm, hast⟩
    · rw [update_of_ne hid] at hrow
      exact h.row hrequest hrow hactive

theorem policyText_of_receive {i : ι} {call : Call} {policyId : String}
    {compiled : Compiled letter json policyId} {row : PolicyRow}
    (h : s.step fenced tenant (.receive i call) = some t) (hnone : s.request i = none)
    (hr : t.request i = some (.publish policyId compiled)) (hrow : t.policies policyId = some row) :
    row.policyText = compiled.policyText := by
  simp only [step] at h
  split at h
  · split at h
    · rename_i request hhandle
      cases h
      have hrequest : request = .publish policyId compiled := by simpa using hr
      exact policyText_of_handle (hrequest ▸ hhandle) hrow
    · cases h
      rw [hnone] at hr
      cases hr
  · cases h

structure Fresh (s : Site letter json ι ρ) : Prop where
  drafts : ∀ policyId row, s.policies policyId = some row → row.status = .draft
  request : ∀ i, s.request i = none

omit [DecidableEq ι] [DecidableEq ρ] in
theorem Fresh.validated (h : s.Fresh) : s.Validated := by
  intro policyId row hrow hactive
  rw [h.drafts policyId row hrow] at hactive
  cases hactive

/-- In every interleaving in which no publication commits over a text other than
the one it compiled, with and without the fence. -/
theorem active_text_validated (fenced : Bool) (tenant : String) (s : Site letter json ι ρ)
    (hs : s.Fresh) (schedule : List (SiteEvent ι ρ))
    (h : Meets (step fenced tenant) ReadsCurrent s schedule) :
    Always (step fenced tenant) Validated s schedule :=
  always_of_invariant (fun _ _ _ h hcond hstep ↦ h.step hcond hstep) (fun _ h ↦ h)
    hs.validated h

def draftSite : Site (fun _ ↦ false) ⟨fun _ ↦ "[]", fun _ ↦ .ok "ast"⟩ Bool Unit where
  fence := {
    pdp := 1
    row := some ⟨1, true, none⟩
    holder := none
    draft := none
    phase := fun _ ↦ .idle
    loaded := fun _ ↦ 1 }
  policies := update (fun _ ↦ none) "p1" (some {
    policyText := "permit(principal == any, action == action:READ, resource == any);"
    astJson := none
    version := 1
    status := .draft })
  request _ := none

theorem draftSite_fresh : draftSite.Fresh := by
  refine ⟨?_, fun _ ↦ rfl⟩
  intro policyId _ hrow
  by_cases hid : policyId = "p1"
  · subst hid
    cases hrow
    rfl
  · simp [draftSite, update_of_ne hid] at hrow

def overlappingUpdate : List (SiteEvent Bool Unit) :=
  [.receive true (.update "p1" "forbid(principal == any, action == any, resource == any);"),
    .receive false (.publish "p1"), .mutate false .settled, .mutate true .settled]

theorem active_text_validated_p1 : draftSite.Fresh ∧
    (Trace.run (step false "t1") draftSite overlappingUpdate).isSome = true ∧
    Always (step false "t1") Validated draftSite overlappingUpdate := by
  refine ⟨draftSite_fresh, by rfl,
    active_text_validated false "t1" draftSite draftSite_fresh _ ?_⟩
  have hreceive {s : Site (fun _ ↦ false) ⟨fun _ ↦ "[]", fun _ ↦ .ok "ast"⟩ Bool Unit}
      {i : Bool} {call : Call} : s.ReadsCurrent (.receive i call) := fun _ _ _ _ _ he ↦ nomatch he
  refine ⟨hreceive, fun s₁ h₁ ↦ ⟨hreceive, fun s₂ h₂ ↦ ⟨?_, fun s₃ h₃ ↦ ⟨?_, fun _ _ ↦ trivial⟩⟩⟩⟩
  · intro _ _ _ _ _ he _ hr hrow
    cases he
    refine policyText_of_receive h₂ ?_ hr hrow
    cases h₁
    rfl
  · intro _ _ _ _ _ he _ hr
    cases he
    have hupdate := (step_cases h₃).1 _ _ ((step_cases h₂).1 true _ (by cases h₁; rfl))
    cases hupdate.symm.trans hr

def fencedCall (i : ι) : List (SiteEvent ι ρ) :=
  [.fence (.begin i), .fence (.seed i), .fence (.mark i), .fence (.commit i), .mutate i .settled,
    .fence (.fetch i), .fence (.publish i)]

/-- An update that is whole and over before the publication comes to the fence
leaves its text to be activated unread. -/
theorem updated_text_published_uncompiled : draftSite.Fresh ∧
    ∃ t, Trace.run (step true "t1") draftSite
        (.receive false (.publish "p1") :: .receive true (.update "p1" "permit") ::
          (fencedCall true ++ fencedCall false)) = some t ∧
      t.policies "p1" = some ⟨"permit", some "ast", 2, .active⟩ ∧ ¬ t.Validated := by
  refine ⟨draftSite_fresh, ?_⟩
  have hrow : (Trace.run (step true "t1") draftSite
      (.receive false (.publish "p1") :: .receive true (.update "p1" "permit") ::
        (fencedCall true ++ fencedCall false))).bind (·.policies "p1") =
      some ⟨"permit", some "ast", 2, .active⟩ := by rfl
  obtain ⟨t, ht, hactive⟩ := Option.bind_eq_some_iff.mp hrow
  refine ⟨t, ht, hactive, ?_⟩
  intro h
  obtain ⟨_, compiled, -, htext, -⟩ := h "p1" _ hactive rfl
  have htext : compiled.policyText = "permit" := htext
  have haccepted : (publishCheck (fun _ ↦ false) "p1" "permit").isAccepted = true := by
    rw [← htext, compiled.accepted]
    rfl
  exact absurd haccepted (by decide)

end Site

end PolicyEngine.Server
