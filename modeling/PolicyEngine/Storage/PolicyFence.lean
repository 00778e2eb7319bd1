import Mathlib.Logic.Function.Basic
import PolicyEngine.Go.Strconv
import PolicyEngine.Trace.Run

namespace PolicyEngine.Storage

open Function PolicyEngine.Go PolicyEngine.Trace

/-- A row of `pdp_policy_fence_v1`. A publication is known by the token its
writer drew. -/
structure FenceRow (τ : Type) where
  revision : ℕ
  ready : Bool
  publicationId : Option τ
deriving DecidableEq

/-- `value.isascii() and value.isdecimal()`, and then `int(value)`. -/
def decimal (value : Option String) : Option ℕ := value.bind (Strconv.parseDigits ·.toList)

def staleAgainst {τ : Type} (policyRevisions : List (Option String)) :
    Option (FenceRow τ) → Bool
  | none => true
  | some row => !row.ready || policyRevisions.any (decimal · ≠ some row.revision)

/-- `_lock_current_authority`, on the two rows it locks and the revisions the
decisions came with. -/
def lockCurrentAuthority {τ : Type} (localRevision : Option ℕ) (row : Option (FenceRow τ))
    (policyRevisions : List (Option String)) : Except String Unit :=
  if policyRevisions = [] ∨ policyRevisions.any fun value ↦ (decimal value).isNone then
    .error "Missing evaluated policy revision."
  else if localRevision = none then .error "Local authority fence is unavailable."
  else if staleAgainst policyRevisions row then
    .error "Policy publication is pending or the authorization is stale."
  else .ok ()

/-- What `mutate` did: whether a new tenant revision was committed (an update of
a draft commits none), and the error it returned, which a lost connection can
make it return after its commit. -/
structure Mutation where
  advances : Bool
  error : Option String

/-- Where a call is: a writer in `fencedPolicyMutation`, a decision before and
after `EnsureERPPolicyRevision`, or an ERP transaction that has passed its final
check and not ended. -/
inductive Phase (ι : Type)
  | idle
  | begun
  | seeded
  | marked
  | fenced
  | mutated
  | fetched (revision : ℕ)
  | evaluated (revision : ℕ)
  | answered (revision : ℕ)
  | checked (decisions : List ι)
  | returned (result : Except String Unit)
  | crashed

def Phase.AtRest {ι : Type} : Phase ι → Prop
  | .marked | .fenced | .mutated | .fetched _ | .checked _ => False
  | _ => True

/-- Two databases and everybody who works on one tenant of them: the revision
committed in the PDP, the fence row committed in the ERP, who holds the lock of
that row with the version not yet committed, and the replicas' revisions. -/
structure World (ι ρ : Type) where
  pdp : ℕ
  row : Option (FenceRow ι)
  holder : Option ι
  draft : Option (FenceRow ι)
  phase : ι → Phase ι
  loaded : ρ → ℕ

inductive Event (ι ρ : Type)
  | begin (writer : ι)
  | seed (writer : ι)
  | mark (writer : ι)
  | commit (writer : ι)
  | mutate (writer : ι) (outcome : Mutation)
  | fetch (writer : ι)
  | publish (writer : ι)
  | crash (writer : ι)
  | load (replica : ρ) (revision : ℕ)
  | evaluate (decision : ι) (replica : ρ)
  | ensure (decision : ι)
  | check (transaction : ι) (localRevision : Option ℕ) (decisions : List ι)
  | finish (transaction : ι)

namespace World

variable {ι ρ : Type}

def advice (w : World ι ρ) (decision : ι) : Option String :=
  match w.phase decision with
  | .answered revision => some (Strconv.formatNat revision)
  | _ => none

section Model

variable [DecidableEq ι]

def goto (w : World ι ρ) (i : ι) (phase : Phase ι) : World ι ρ :=
  { w with phase := update w.phase i phase }

/-- The end of the ERP transaction of `i` without a commit. -/
def rollback (w : World ι ρ) (i : ι) : World ι ρ :=
  if w.holder = some i then { w with holder := none, draft := none } else w

/-- `INSERT ... VALUES (tenant, 0, true) ON CONFLICT DO NOTHING`: it waits for
another insertion that is not committed, and else inserts or does nothing. -/
def seed (w : World ι ρ) (i : ι) : Option (World ι ρ) :=
  match w.row, w.holder with
  | some _, _ => some (w.goto i .seeded)
  | none, none => some { w.goto i .seeded with holder := some i, draft := some ⟨0, true, none⟩ }
  | none, some _ => none

/-- `UPDATE ... SET ready=false, publication_id=token WHERE ready=true`, which
waits for the lock and looks at the row once it has it. -/
def mark (w : World ι ρ) (tenant : String) (i : ι) : Option (World ι ρ) :=
  if w.holder = none ∨ w.holder = some i then
    match if w.holder = some i then w.draft else w.row with
    | some row =>
      if row.ready then
        some { w.goto i .marked with
          holder := some i
          draft := some { row with ready := false, publicationId := some i } }
      else
        some ((w.rollback i).goto i
          (.returned (.error ("ERP policy publication already pending for tenant " ++ tenant))))
    | none =>
      some ((w.rollback i).goto i
        (.returned (.error ("ERP policy publication already pending for tenant " ++ tenant))))
  else none

def mutate (w : World ι ρ) (i : ι) (m : Mutation) : World ι ρ :=
  { w.goto i (m.error.elim .mutated fun e ↦
      .returned (.error ("policy publication remains fenced pending recovery: " ++ e))) with
    pdp := if m.advances then w.pdp + 1 else w.pdp }

/-- `UPDATE ... SET revision, ready=true WHERE publication_id=token AND
ready=false`, a transaction of its own. -/
def publish (w : World ι ρ) (i : ι) (revision : ℕ) : Option (World ι ρ) :=
  match w.holder with
  | some _ => none
  | none =>
    match w.row with
    | some row =>
      if row.publicationId = some i ∧ row.ready = false then
        some { w.goto i (.returned (.ok ())) with row := some ⟨revision, true, none⟩ }
      else some (w.goto i (.returned (.error "ERP policy publication ownership lost")))
    | none => some (w.goto i (.returned (.error "ERP policy publication ownership lost")))

/-- `EnsureERPPolicyRevision`, a transaction of its own. -/
def ensure (w : World ι ρ) (i : ι) (revision : ℕ) : Option (World ι ρ) :=
  match w.row, w.holder with
  | some _, _ => some (w.goto i (.answered revision))
  | none, none => some { w.goto i (.answered revision) with row := some ⟨revision, true, none⟩ }
  | none, some _ => none

variable [DecidableEq ρ]

def step (tenant : String) (w : World ι ρ) : Event ι ρ → Option (World ι ρ)
  | .begin i =>
    match w.phase i with
    | .idle => some (w.goto i .begun)
    | _ => none
  | .seed i =>
    match w.phase i with
    | .begun => w.seed i
    | _ => none
  | .mark i =>
    match w.phase i with
    | .seeded => w.mark tenant i
    | _ => none
  | .commit i =>
    match w.phase i with
    | .marked => some { w.goto i .fenced with row := w.draft, holder := none, draft := none }
    | _ => none
  | .mutate i outcome =>
    match w.phase i with
    | .fenced => some (w.mutate i outcome)
    | _ => none
  | .fetch i =>
    match w.phase i with
    | .mutated => some (w.goto i (.fetched w.pdp))
    | _ => none
  | .publish i =>
    match w.phase i with
    | .fetched revision => w.publish i revision
    | _ => none
  | .crash i =>
    -- An answer that has been sent does not go away with its replica.
    match w.phase i with
    | .answered _ => none
    | _ => some ((w.rollback i).goto i .crashed)
  | .load replica revision =>
    if revision ≤ w.pdp then some { w with loaded := update w.loaded replica revision } else none
  | .evaluate i replica =>
    match w.phase i with
    | .idle => some (w.goto i (.evaluated (w.loaded replica)))
    | _ => none
  | .ensure i =>
    match w.phase i with
    | .evaluated revision => w.ensure i revision
    | _ => none
  | .check i localRevision decisions =>
    match w.phase i, w.holder with
    | .idle, none =>
      match lockCurrentAuthority localRevision w.row (decisions.map w.advice) with
      | .ok () => some { w.goto i (.checked decisions) with holder := some i }
      | .error e => some (w.goto i (.returned (.error e)))
    | _, _ => none
  | .finish i =>
    match w.phase i with
    | .checked _ => some ((w.rollback i).goto i (.returned (.ok ())))
    | _ => none

inductive Step (tenant : String) (w : World ι ρ) : Event ι ρ → World ι ρ → Prop
  | begin {i : ι} (hi : w.phase i = .idle) : Step tenant w (.begin i) (w.goto i .begun)
  | seed {i : ι} {w' : World ι ρ} (hi : w.phase i = .begun) (h : w.seed i = some w') :
      Step tenant w (.seed i) w'
  | mark {i : ι} {w' : World ι ρ} (hi : w.phase i = .seeded) (h : w.mark tenant i = some w') :
      Step tenant w (.mark i) w'
  | commit {i : ι} (hi : w.phase i = .marked) : Step tenant w (.commit i)
      { w.goto i .fenced with row := w.draft, holder := none, draft := none }
  | mutate {i : ι} {m : Mutation} (hi : w.phase i = .fenced) :
      Step tenant w (.mutate i m) (w.mutate i m)
  | fetch {i : ι} (hi : w.phase i = .mutated) : Step tenant w (.fetch i) (w.goto i (.fetched w.pdp))
  | publish {i : ι} {revision : ℕ} {w' : World ι ρ} (hi : w.phase i = .fetched revision)
      (h : w.publish i revision = some w') : Step tenant w (.publish i) w'
  | crash {i : ι} (hi : ∀ revision, w.phase i ≠ .answered revision) :
      Step tenant w (.crash i) ((w.rollback i).goto i .crashed)
  | load {replica : ρ} {revision : ℕ} (h : revision ≤ w.pdp) :
      Step tenant w (.load replica revision) { w with loaded := update w.loaded replica revision }
  | evaluate {i : ι} {replica : ρ} (hi : w.phase i = .idle) :
      Step tenant w (.evaluate i replica) (w.goto i (.evaluated (w.loaded replica)))
  | ensure {i : ι} {revision : ℕ} {w' : World ι ρ} (hi : w.phase i = .evaluated revision)
      (h : w.ensure i revision = some w') : Step tenant w (.ensure i) w'
  | pass {i : ι} {localRevision : Option ℕ} {decisions : List ι} (hi : w.phase i = .idle)
      (hfree : w.holder = none)
      (h : lockCurrentAuthority localRevision w.row (decisions.map w.advice) = .ok ()) :
      Step tenant w (.check i localRevision decisions)
        { w.goto i (.checked decisions) with holder := some i }
  | refuse {i : ι} {localRevision : Option ℕ} {decisions : List ι} {err : String}
      (hi : w.phase i = .idle) (hfree : w.holder = none) :
      Step tenant w (.check i localRevision decisions) (w.goto i (.returned (.error err)))
  | finish {i : ι} {decisions : List ι} (hi : w.phase i = .checked decisions) :
      Step tenant w (.finish i) ((w.rollback i).goto i (.returned (.ok ())))

theorem step_cases {tenant : String} {w w' : World ι ρ} {e : Event ι ρ}
    (h : w.step tenant e = some w') : Step tenant w e w' := by
  cases e with
  | begin =>
    simp only [step] at h
    split at h <;> cases h
    exact .begin ‹_›
  | seed =>
    simp only [step] at h
    split at h
    · exact .seed ‹_› h
    · cases h
  | mark =>
    simp only [step] at h
    split at h
    · exact .mark ‹_› h
    · cases h
  | commit =>
    simp only [step] at h
    split at h <;> cases h
    exact .commit ‹_›
  | mutate =>
    simp only [step] at h
    split at h <;> cases h
    exact .mutate ‹_›
  | fetch =>
    simp only [step] at h
    split at h <;> cases h
    exact .fetch ‹_›
  | publish =>
    simp only [step] at h
    split at h
    · exact .publish ‹_› h
    · cases h
  | crash =>
    simp only [step] at h
    split at h <;> cases h
    exact .crash ‹_›
  | load =>
    simp only [step] at h
    split at h <;> cases h
    exact .load ‹_›
  | evaluate =>
    simp only [step] at h
    split at h <;> cases h
    exact .evaluate ‹_›
  | ensure =>
    simp only [step] at h
    split at h
    · exact .ensure ‹_› h
    · cases h
  | check =>
    simp only [step] at h
    split at h
    · split at h <;> cases h
      · exact .pass ‹_› ‹_› ‹_›
      · exact .refuse ‹_› ‹_›
    · cases h
  | finish =>
    simp only [step] at h
    split at h <;> cases h
    exact .finish ‹_›

end Model

/-- A ready row tells the revision committed in the PDP, and a transaction past
its final check rests on decisions evaluated at that revision only. -/
def Vouches (w : World ι ρ) : Prop :=
  (∀ row, w.row = some row → row.ready = true → row.revision = w.pdp) ∧
    ∀ i decisions, w.phase i = .checked decisions →
      decisions ≠ [] ∧ ∀ d ∈ decisions, w.phase d = .answered w.pdp

/-- A decision that creates the row was evaluated at the revision of the PDP. -/
def CurrentBootstrap (w : World ι ρ) (e : Event ι ρ) : Prop :=
  ∀ i revision, e = .ensure i → w.phase i = .evaluated revision → w.row = none →
    w.holder = none → revision = w.pdp

/-- What a call in a given phase relies on. From its first commit to its last a
writer is the one whose token stands in the row. -/
def Owns (w : World ι ρ) (i : ι) : Phase ι → Prop
  | .marked => w.holder = some i
  | .fenced => ∃ r, w.row = some ⟨r, false, some i⟩
  | .mutated => ∃ r, w.row = some ⟨r, false, some i⟩
  | .fetched revision => revision = w.pdp ∧ ∃ r, w.row = some ⟨r, false, some i⟩
  | .checked decisions =>
    w.holder = some i ∧ decisions ≠ [] ∧ ∀ d ∈ decisions, w.phase d = .answered w.pdp
  | _ => True

def Locks (w : World ι ρ) (i : ι) : Phase ι → Prop
  | .seeded => w.row = none ∧ w.draft = some ⟨0, true, none⟩
  | .marked => (∃ r, w.draft = some ⟨r, false, some i⟩) ∧
      ∀ row, w.row = some row → row.ready = true
  | .checked _ => ∃ row, w.row = some row ∧ row.ready = true
  | _ => False

structure Inv (w : World ι ρ) : Prop where
  current : ∀ row, w.row = some row → row.ready = true → row.revision = w.pdp
  owns : ∀ i, w.Owns i (w.phase i)
  locks : ∀ i, w.holder = some i → w.Locks i (w.phase i)

theorem Inv.vouches {w : World ι ρ} (h : w.Inv) : w.Vouches := by
  refine ⟨h.current, ?_⟩
  intro i _ hi
  have hown := h.owns i
  rw [hi] at hown
  exact hown.2

theorem Owns.of_atRest {w : World ι ρ} {i : ι} {phase : Phase ι} (h : phase.AtRest) :
    w.Owns i phase := by
  cases phase <;> trivial

section Steps

variable {w w' : World ι ρ} {i : ι} {p : Phase ι}

theorem Inv.others_atRest (h : w.Inv) (hholder : ∀ j, w.holder = some j → j = i)
    (hrow : ∀ r j, w.row = some ⟨r, false, some j⟩ → j = i) :
    ∀ j, j ≠ i → (w.phase j).AtRest := by
  intro j hj
  have hown := h.owns j
  cases hp : w.phase j with
  | marked => rw [hp] at hown; exact hj (hholder j hown)
  | fenced => rw [hp] at hown; exact hown.elim fun r hr ↦ hj (hrow r j hr)
  | mutated => rw [hp] at hown; exact hown.elim fun r hr ↦ hj (hrow r j hr)
  | fetched => rw [hp] at hown; exact hown.2.elim fun r hr ↦ hj (hrow r j hr)
  | checked => rw [hp] at hown; exact hj (hholder j hown.1)
  | _ => trivial

theorem Inv.holder_ne (h : w.Inv) (hi : ¬ w.Locks i (w.phase i)) : w.holder ≠ some i :=
  mt (h.locks i) hi

theorem Inv.pending {r : ℕ} (h : w.Inv) (hrow : w.row = some ⟨r, false, some i⟩) :
    w.holder = none ∧ ∀ j, j ≠ i → (w.phase j).AtRest := by
  have hnone : w.holder = none := by
    rw [Option.eq_none_iff_forall_ne_some]
    intro j hj
    have hlock := h.locks j hj
    cases hp : w.phase j with
    | seeded => rw [hp] at hlock; exact absurd (hrow.symm.trans hlock.1) (by simp)
    | marked => rw [hp] at hlock; exact absurd (hlock.2 _ hrow) (by simp)
    | checked =>
      rw [hp] at hlock
      obtain ⟨_, hr, hready⟩ := hlock
      rw [hrow] at hr
      exact absurd ((Option.some.inj hr).symm ▸ hready) (by simp)
    | _ => rw [hp] at hlock; exact hlock
  refine ⟨hnone, h.others_atRest (by simp [hnone]) ?_⟩
  intro r' j hr'
  rw [hrow] at hr'
  obtain ⟨-, hj⟩ : r' = r ∧ j = i := by simpa using hr'.symm
  exact hj

theorem answered_of_lockCurrentAuthority {localRevision : Option ℕ} {decisions : List ι}
    (h : lockCurrentAuthority localRevision w.row (decisions.map w.advice) = .ok ()) :
    ∃ row, w.row = some row ∧ row.ready = true ∧ decisions ≠ [] ∧
      ∀ d ∈ decisions, w.phase d = .answered row.revision := by
  unfold lockCurrentAuthority at h
  split at h
  case isTrue => cases h
  case isFalse hdecimal =>
    split at h
    case isTrue => cases h
    case isFalse =>
      split at h
      case isTrue => cases h
      case isFalse hstale =>
        cases hrow : w.row with
        | none => exact absurd (by rw [hrow]; rfl) hstale
        | some row =>
          simp only [hrow, staleAgainst, Bool.or_eq_true, not_or, Bool.not_eq_true',
            Bool.not_eq_false, List.any_eq_true, List.mem_map, not_exists, not_and,
            forall_exists_index, and_imp, forall_apply_eq_imp_iff₂, decide_eq_true_eq,
            not_not] at hstale
          refine ⟨row, rfl, hstale.1, ?_, ?_⟩
          · intro hnil
            exact hdecimal (.inl (by rw [hnil, List.map_nil]))
          · intro d hd
            have hadvice := hstale.2 d hd
            cases hp : w.phase d with
            | answered =>
              simp only [advice, hp, decimal, Option.bind_some, Strconv.formatNat,
                String.toList_ofList, Strconv.parseDigits_toDigits, Option.some.injEq] at hadvice
              rw [hadvice]
            | _ => simp [advice, hp, decimal] at hadvice

variable [DecidableEq ι]

theorem Inv.of_atRest (hrest : ∀ j, j ≠ i → (w.phase j).AtRest)
    (hphase : w'.phase = update w.phase i p) (hown : w'.Owns i p)
    (hcurrent : ∀ row, w'.row = some row → row.ready = true → row.revision = w'.pdp)
    (hlocks : ∀ j, w'.holder = some j → j = i ∧ w'.Locks i p) : w'.Inv where
  current := hcurrent
  owns := by
    intro j
    rw [hphase]
    by_cases hj : j = i
    · subst hj
      rwa [update_self]
    · rw [update_of_ne hj]
      exact Owns.of_atRest (hrest j hj)
  locks := by
    intro j hj
    obtain ⟨rfl, _⟩ := hlocks j hj
    rwa [hphase, update_self]

theorem Inv.leave (h : w.Inv) (hp : p.AtRest) (hi : ∀ revision, w.phase i ≠ .answered revision) :
    ((w.rollback i).goto i p).Inv := by
  have hrow : (w.rollback i).row = w.row := by rw [rollback]; split <;> rfl
  have hpdp : (w.rollback i).pdp = w.pdp := by rw [rollback]; split <;> rfl
  have hphase : (w.rollback i).phase = w.phase := by rw [rollback]; split <;> rfl
  have hkeep : ∀ j, j ≠ i → w.holder = some j → w.rollback i = w := by
    intro _ hj hholder
    rw [rollback, if_neg]
    rw [hholder]
    exact fun e ↦ hj (Option.some.inj e)
  constructor
  · intro row hr
    exact hpdp ▸ h.current row (hrow ▸ hr)
  · intro j
    show ((w.rollback i).goto i p).Owns j (update (w.rollback i).phase i p j)
    rw [hphase]
    by_cases hj : j = i
    · subst hj
      rw [update_self]
      exact Owns.of_atRest hp
    · rw [update_of_ne hj]
      have hown := h.owns j
      cases hpj : w.phase j with
      | marked =>
        rw [hpj] at hown
        rw [hkeep j hj hown]
        exact hown
      | fenced => rw [hpj] at hown; exact hown.imp fun r hr ↦ hrow.trans hr
      | mutated => rw [hpj] at hown; exact hown.imp fun r hr ↦ hrow.trans hr
      | fetched =>
        rw [hpj] at hown
        exact ⟨hown.1.trans hpdp.symm, hown.2.imp fun r hr ↦ hrow.trans hr⟩
      | checked =>
        rw [hpj] at hown
        rw [hkeep j hj hown.1]
        refine ⟨hown.1, hown.2.1, ?_⟩
        -- A decision that was answered is not the call that leaves.
        intro d hd
        have hd' : d ≠ i := fun e ↦ hi _ (e ▸ hown.2.2 d hd)
        exact (update_of_ne hd' _ _).trans (hown.2.2 d hd)
      | _ => trivial
  · intro j hj
    have hj' : j ≠ i ∧ w.holder = some j := by
      by_cases hwi : w.holder = some i
      · simp [goto, rollback, hwi] at hj
      · have hj : w.holder = some j := by simpa [goto, rollback, hwi] using hj
        exact ⟨fun e ↦ hwi (e ▸ hj), hj⟩
    rw [hkeep j hj'.1 hj'.2]
    show (w.goto i p).Locks j (update w.phase i p j)
    rw [update_of_ne hj'.1]
    exact h.locks j hj'.2

theorem Inv.goto (h : w.Inv) (hp : p.AtRest) (hi : ∀ revision, w.phase i ≠ .answered revision)
    (hholder : w.holder ≠ some i) : (w.goto i p).Inv := by
  have hleave := h.leave hp hi
  rwa [rollback, if_neg hholder] at hleave

theorem Inv.seed (h : w.Inv) (hi : w.phase i = .begun) (hstep : w.seed i = some w') : w'.Inv := by
  have hfree := h.holder_ne (i := i) (by simp [hi, Locks])
  unfold World.seed at hstep
  split at hstep
  case h_1 =>
    cases hstep
    exact h.goto trivial (by simp [hi]) hfree
  case h_2 hrow hholder =>
    cases hstep
    have hrest := h.others_atRest (i := i) (by simp [hholder]) (by simp [hrow])
    refine Inv.of_atRest hrest rfl trivial ?_ ?_
    · intro _ hr
      exact absurd (hrow.symm.trans hr) (by simp)
    · intro _ hj
      exact ⟨(Option.some.inj hj).symm, hrow, rfl⟩
  case h_3 => cases hstep

theorem Inv.mark {tenant : String} (h : w.Inv) (hi : w.phase i = .seeded)
    (hstep : w.mark tenant i = some w') : w'.Inv := by
  have herror : ∀ e, ((w.rollback i).goto i (.returned (.error e))).Inv :=
    fun e ↦ h.leave trivial (by simp [hi])
  have hseed : w.holder = some i → w.row = none := by
    intro hholder
    have hlock := h.locks i hholder
    rw [hi] at hlock
    exact hlock.1
  unfold World.mark at hstep
  split at hstep
  case isFalse => cases hstep
  case isTrue hfree =>
    split at hstep
    case h_2 => cases hstep; exact herror _
    case h_1 row hrow =>
      split at hstep
      case isFalse => cases hstep; exact herror _
      case isTrue hready =>
        cases hstep
        have hcommitted : ∀ row', w.row = some row' → row'.ready = true := by
          intro _ hr
          by_cases hholder : w.holder = some i
          · exact absurd ((hseed hholder).symm.trans hr) (by simp)
          · rw [if_neg hholder, hr] at hrow
            exact Option.some.inj hrow ▸ hready
        have hrest := h.others_atRest (i := i)
          (fun j hj ↦ by simpa [hj] using hfree) (fun r j hr ↦ absurd (hcommitted _ hr) (by simp))
        refine Inv.of_atRest hrest rfl rfl h.current ?_
        intro _ hj
        exact ⟨(Option.some.inj hj).symm, ⟨row.revision, rfl⟩, hcommitted⟩

theorem Inv.commit (h : w.Inv) (hi : w.phase i = .marked) :
    ({ w.goto i .fenced with row := w.draft, holder := none, draft := none } : World ι ρ).Inv := by
  have hown := h.owns i
  rw [hi] at hown
  have hlock := h.locks i hown
  rw [hi] at hlock
  obtain ⟨⟨r, hdraft⟩, hready⟩ := hlock
  have hrest := h.others_atRest (i := i) (fun j hj ↦ Option.some.inj (hj.symm.trans hown))
    (fun r j hr ↦ absurd (hready _ hr) (by simp))
  refine Inv.of_atRest hrest rfl ⟨r, hdraft⟩ ?_ (by simp)
  intro _ hr hready
  rw [hdraft] at hr
  exact absurd ((Option.some.inj hr).symm ▸ hready) (by simp)

theorem Inv.publishing {r : ℕ} (h : w.Inv) (hrow : w.row = some ⟨r, false, some i⟩)
    (hphase : w'.phase = update w.phase i p) (hrow' : w'.row = w.row) (hholder : w'.holder = w.holder)
    (hown : w'.Owns i p) : w'.Inv := by
  obtain ⟨hfree, hrest⟩ := h.pending hrow
  refine Inv.of_atRest hrest hphase hown ?_ (by simp [hholder, hfree])
  intro _ hr hready
  rw [hrow', hrow] at hr
  exact absurd ((Option.some.inj hr).symm ▸ hready) (by simp)

theorem Inv.mutate (h : w.Inv) (hi : w.phase i = .fenced) (m : Mutation) :
    (w.mutate i m).Inv := by
  have hown := h.owns i
  rw [hi] at hown
  obtain ⟨r, hrow⟩ := hown
  refine h.publishing hrow rfl rfl rfl ?_
  cases m.error with
  | none => exact ⟨r, hrow⟩
  | some => trivial

theorem Inv.publish {revision : ℕ} (h : w.Inv) (hi : w.phase i = .fetched revision)
    (hstep : w.publish i revision = some w') : w'.Inv := by
  have hown := h.owns i
  rw [hi] at hown
  obtain ⟨hrevision, _, hrow⟩ := hown
  obtain ⟨hfree, hrest⟩ := h.pending hrow
  simp only [World.publish, hfree, hrow, and_self, if_true] at hstep
  cases hstep
  refine Inv.of_atRest hrest rfl trivial ?_ (by simp [World.goto, hfree])
  intro _ hr _
  cases hr
  exact hrevision

theorem Inv.ensure {revision : ℕ} (h : w.Inv) (hi : w.phase i = .evaluated revision)
    (hcurrent : w.row = none → w.holder = none → revision = w.pdp)
    (hstep : w.ensure i revision = some w') : w'.Inv := by
  have hfree := h.holder_ne (i := i) (by simp [hi, Locks])
  unfold World.ensure at hstep
  split at hstep
  case h_1 =>
    cases hstep
    exact h.goto trivial (by simp [hi]) hfree
  case h_2 hrow hholder =>
    cases hstep
    have hrest := h.others_atRest (i := i) (by simp [hholder]) (by simp [hrow])
    refine Inv.of_atRest hrest rfl trivial ?_ (by simp [World.goto, hholder])
    intro _ hr _
    cases hr
    exact hcurrent hrow hholder
  case h_3 => cases hstep

theorem Inv.check {localRevision : Option ℕ} {decisions : List ι} (h : w.Inv)
    (hi : w.phase i = .idle) (hfree : w.holder = none)
    (hok : lockCurrentAuthority localRevision w.row (decisions.map w.advice) = .ok ()) :
    ({ w.goto i (.checked decisions) with holder := some i } : World ι ρ).Inv := by
  obtain ⟨row, hrow, hready, hne, hanswered⟩ := answered_of_lockCurrentAuthority hok
  have hrest := h.others_atRest (i := i) (by simp [hfree]) (by
    intro _ _ hr
    rw [hrow] at hr
    exact absurd (Option.some.inj hr ▸ hready) (by simp))
  refine Inv.of_atRest hrest rfl ⟨rfl, hne, ?_⟩ h.current ?_
  · intro d hd
    have hd' : d ≠ i := by
      intro e
      have hidle := hanswered d hd
      rw [e, hi] at hidle
      cases hidle
    show update w.phase i _ d = .answered w.pdp
    rw [update_of_ne hd', hanswered d hd, h.current row hrow hready]
  · intro _ hj
    exact ⟨(Option.some.inj hj).symm, row, hrow, hready⟩

theorem Inv.step [DecidableEq ρ] {tenant : String} {e : Event ι ρ} (h : w.Inv)
    (hcond : w.CurrentBootstrap e) (hstep : w.step tenant e = some w') : w'.Inv := by
  cases step_cases hstep with
  | begin hi => exact h.goto trivial (by simp [hi]) (h.holder_ne (by simp [hi, Locks]))
  | seed hi hseed => exact h.seed hi hseed
  | mark hi hmark => exact h.mark hi hmark
  | commit hi => exact h.commit hi
  | mutate hi => exact h.mutate hi _
  | @fetch i hi =>
    have hown := h.owns i
    rw [hi] at hown
    obtain ⟨r, hrow⟩ := hown
    exact h.publishing hrow rfl rfl rfl ⟨rfl, r, hrow⟩
  | publish hi hpublish => exact h.publish hi hpublish
  | crash hi => exact h.leave trivial hi
  | load => exact ⟨h.current, h.owns, h.locks⟩
  | evaluate hi => exact h.goto trivial (by simp [hi]) (h.holder_ne (by simp [hi, Locks]))
  | ensure hi hensure => exact h.ensure hi (hcond _ _ rfl hi) hensure
  | pass hi hfree hok => exact h.check hi hfree hok
  | refuse hi hfree => exact h.goto trivial (by simp [hi]) (by simp [hfree])
  | finish hi => exact h.leave trivial (by simp [hi])

end Steps

structure Fresh (w : World ι ρ) : Prop where
  row : w.row = none
  holder : w.holder = none
  idle : ∀ i, w.phase i = .idle
  behind : ∀ replica, w.loaded replica ≤ w.pdp

theorem Fresh.inv {w : World ι ρ} (h : w.Fresh) : w.Inv where
  current := by simp [h.row]
  owns := fun i ↦ by rw [h.idle i]; trivial
  locks := by simp [h.holder]

/-- In every interleaving, the fence vouches for the PDP's revision throughout
exactly when each decision that bootstraps the row is one at that revision. -/
theorem vouches_iff_currentBootstrap [DecidableEq ι] [DecidableEq ρ] (tenant : String)
    (w : World ι ρ) (hw : w.Fresh) (schedule : List (Event ι ρ)) :
    Always (step tenant) Vouches w schedule ↔ Meets (step tenant) CurrentBootstrap w schedule := by
  constructor
  · apply meets_of_always
    intro w _ _ hnext i revision he hi hrow hholder
    subst he
    have hstep : w.step tenant (.ensure i) =
        some { w.goto i (.answered revision) with row := some ⟨revision, true, none⟩ } := by
      simp only [step, hi, ensure, hrow, hholder]
    exact (hnext _ hstep).1 _ rfl rfl
  · exact always_of_invariant (fun _ _ _ h hcond hstep ↦ h.step hcond hstep)
      (fun _ h ↦ h.vouches) hw.inv

def lagging : World (Fin 2) Unit where
  pdp := 2
  row := none
  holder := none
  draft := none
  phase _ := .idle
  loaded _ := 1

theorem lagging_fresh : lagging.Fresh := ⟨rfl, rfl, fun _ ↦ rfl, fun _ ↦ Nat.le_succ 1⟩

theorem vouches_after_load_of_lagging : lagging.Fresh ∧
    Always (step "t1") Vouches lagging
      [.load () 2, .evaluate 0 (), .ensure 0, .check 1 (some 0) [0], .finish 1] := by
  refine ⟨lagging_fresh, (vouches_iff_currentBootstrap "t1" lagging lagging_fresh _).mpr ?_⟩
  refine ⟨by simp [CurrentBootstrap], fun t ht ↦ ?_⟩
  cases ht
  refine ⟨by simp [CurrentBootstrap], fun t ht ↦ ?_⟩
  cases ht
  refine ⟨?_, fun t ht ↦ ?_⟩
  · rintro _ _ ⟨⟩ hi - -
    cases hi
    rfl
  cases ht
  refine ⟨by simp [CurrentBootstrap], fun t ht ↦ ?_⟩
  cases ht
  exact ⟨by simp [CurrentBootstrap], fun _ _ ↦ trivial⟩

/-- The first decision of a tenant comes from the lagging replica: the row it
creates is ready at a revision the PDP has left, and the final check passes. -/
theorem laggingReplica_bootstraps_stale_row : lagging.Fresh ∧
    ∃ w, Trace.run (step "t1") lagging [.evaluate 0 (), .ensure 0, .check 1 (some 0) [0]] = some w ∧
      w.pdp = 2 ∧ w.row = some ⟨1, true, none⟩ ∧ w.phase 0 = .answered 1 ∧
      w.phase 1 = .checked [0] ∧ ¬ w.Vouches := by
  refine ⟨lagging_fresh, _, rfl, rfl, rfl, rfl, rfl, ?_⟩
  intro h
  exact absurd (h.1 _ rfl rfl) (by decide)

end World

end PolicyEngine.Storage
