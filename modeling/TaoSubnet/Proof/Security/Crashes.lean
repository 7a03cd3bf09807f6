import TaoSubnet.Proof.Security.Ownership
import TaoSubnet.Security.Crashes

/-!
# Ownership, and processes that die

An acceptance is two commits, the row and the agent. A process that dies between them leaves an
accepted row whose agent nobody owns, and the resubmission of the file is answered from that row,
which registers nothing. Wherever else processes die, the agent is registered to the miner of its
accepted rows, or a live call is about to register it.
-/

namespace TaoSubnet

open Py Machine

variable {δ : Type} {o : Outside δ} {py : Interpreter}

/-! ## Vocabulary -/

/-- The agent is registered to the miner, or a live call of that miner's is about to register it. -/
def OwnedBy (s : Shared δ) (digest miner : String) : Prop :=
  (∃ known, s.db.findAgent digest = some known ∧ known.ownerMinerId = miner) ∨
    Pending s digest miner

/-- Who dies between its two commits leaves the agent registered, or to be registered by another
    call of the same miner's. -/
def CleanDeath (t : Transition (Site δ) (SiteAction δ)) : Prop :=
  ∀ i call id verdict, t.action = .die i → t.before.shared.calls[i]? = some call →
    call.phase = .recorded id verdict → ∀ digest, digest ≠ "" → Claims verdict digest →
      OwnedBy (t.before.shared.lose i) digest call.miner

/-- The lookups of overlapping calls are exclusive. -/
def ExclusiveLookups (t : Transition (Site δ) (SiteAction δ)) : Prop :=
  ∀ action, t.action = .call action → Exclusive ⟨t.before.shared, action, t.after.shared⟩

/-- Ownership is not lost: given a fresh acceptance that is committed, a resubmission of the miner's
    that ends finds or leaves the agent registered to that miner, and nobody else is accepted for it. -/
structure OwnershipKept (t : Transition (Site δ) (SiteAction δ)) : Prop where
  resubmitted : ∀ row ∈ t.before.shared.db.submissions, ∀ digest, digest ≠ "" →
    Claims row.verdict digest → ∀ i call id verdict, t.action = .call (.register i) →
      t.before.shared.calls[i]? = some call → call.phase = .recorded id verdict →
        call.miner = row.verdict.minerId → verdict.agentDigest = some digest →
          OwnedBy t.after.shared digest row.verdict.minerId
  alone : ∀ row ∈ t.before.shared.db.submissions, ∀ digest, digest ≠ "" →
    Claims row.verdict digest → ∀ row' ∈ t.after.shared.db.submissions,
      row'.verdict.status = .accepted → row'.verdict.agentDigest = some digest →
        row'.verdict.minerId = row.verdict.minerId

/-! ## A death -/

variable {s : Shared δ} {i : Nat}

theorem mem_lose {call : Call δ} (h : call ∈ (s.lose i).calls) : call ∈ s.calls :=
  List.mem_of_mem_eraseIdx h

/-- A registration that is pending stays so, unless it is the dead call's. -/
theorem pending_lose {digest miner : String} (h : Pending s digest miner) :
    Pending (s.lose i) digest miner ∨ ∃ call id verdict, s.calls[i]? = some call ∧
      call.phase = .recorded id verdict ∧ Claims verdict digest ∧ call.miner = miner := by
  obtain ⟨j, call, id, verdict, hcall, hphase, hclaims, hminer⟩ := h
  by_cases hsame : j = i
  · subst hsame
    exact .inr ⟨call, id, verdict, hcall, hphase, hclaims, hminer⟩
  · left
    have hmem : call ∈ s.calls.eraseIdx i :=
      List.mem_eraseIdx_iff_getElem?.mpr ⟨j, hsame, hcall⟩
    obtain ⟨k, hk⟩ := List.getElem?_of_mem hmem
    exact ⟨k, call, id, verdict, hk, hphase, hclaims, hminer⟩

theorem Orderly.lose (h : Orderly s)
    (hclean : ∀ call id verdict, s.calls[i]? = some call → call.phase = .recorded id verdict →
      ∀ digest, digest ≠ "" → Claims verdict digest → OwnedBy (s.lose i) digest call.miner) :
    Orderly (s.lose i) where
  consistent := h.consistent
  deduped := by
    intro call hcall
    exact h.deduped call (mem_lose hcall)
  sound := by
    intro call hcall
    exact h.sound call (mem_lose hcall)
  exclusive := by
    intro one hone two htwo
    exact h.exclusive one (mem_lose hone) two (mem_lose htwo)
  owned := by
    intro row hrow haccepted digest hne hdigest
    rcases h.owned row hrow haccepted digest hne hdigest with hknown | hpending
    · exact .inl hknown
    · rcases pending_lose hpending with hstay | ⟨call, id, verdict, hcall, hphase, hclaims, hminer⟩
      · exact .inr hstay
      · rw [← hminer]
        exact hclean call id verdict hcall hphase digest hne hclaims

/-! ## Whole runs -/

/-- What a step of the site can do. -/
inductive SiteMoved (o : Outside δ) (py : Interpreter) (s : Site δ) : SiteAction δ → Site δ → Prop
  | call {action : CallAction δ} {shared : Shared δ}
      (hshared : s.shared.step o py action = some shared) :
    SiteMoved o py s (.call action) { s with shared := shared }
  | died {i : Nat} : SiteMoved o py s (.die i) { s with shared := s.shared.lose i }
  | queue {action : QueueAction} {queue : Queue} :
    SiteMoved o py s (.queue action) { s with queue := queue }

theorem siteMoved {s s' : Site δ} {action : SiteAction δ} (h : s.step o py action = some s') :
    SiteMoved o py s action s' := by
  cases action with
  | call action =>
    obtain ⟨shared, hshared, rfl⟩ := Option.map_eq_some_iff.mp h
    exact .call hshared
  | die i =>
    unfold Site.step at h
    dsimp only at h
    split at h
    · cases h
      exact .died
    · cases h
  | queue action =>
    obtain ⟨queue, -, rfl⟩ := Option.map_eq_some_iff.mp h
    exact .queue

theorem site_step (t : Transition (Site δ) (SiteAction δ))
    (hstep : t.before.step o py t.action = some t.after) (h : Orderly t.before.shared)
    (hcond : CleanDeath t ∧ ExclusiveLookups t) : Orderly t.after.shared := by
  obtain ⟨before, action, after⟩ := t
  obtain ⟨hclean, hexclusive⟩ := hcond
  have hmoved : SiteMoved o py before action after := siteMoved hstep
  cases hmoved with
  | @call action shared hshared =>
    exact orderly_step ⟨before.shared, action, shared⟩ hshared h (hexclusive action rfl)
  | @died i =>
    apply Orderly.lose h
    intro call id verdict hcall hphase
    exact hclean i call id verdict rfl hcall hphase
  | queue => exact h

/-- A row that was committed stays. -/
theorem rows_kept {s s' : Site δ} {action : SiteAction δ} (h : s.step o py action = some s')
    {row : SubmissionRow} (hrow : row ∈ s.shared.db.submissions) :
    row ∈ s'.shared.db.submissions := by
  cases siteMoved h with
  | call hshared =>
    cases moved hshared with
    | start => exact hrow
    | identify => exact hrow
    | lookAgent => exact hrow
    | rule => exact hrow
    | record => exact List.mem_append_left _ hrow
    | @register i call id verdict =>
      show row ∈ (if verdict.fromCache then s.shared.db
        else s.shared.db.registerAgent verdict id).submissions
      split
      · exact hrow
      · rw [registerAgent_submissions]
        exact hrow
  | died => exact hrow
  | queue => exact hrow

/-- **Ownership survives**, in every run whose deaths are clean and whose lookups are exclusive. -/
theorem ownership_survives {actions : List (SiteAction δ)}
    (hclean : ∀ t ∈ transitions (Site.step o py) {} actions, CleanDeath t)
    (hexclusive : ∀ t ∈ transitions (Site.step o py) {} actions, ExclusiveLookups t) :
    ∀ t ∈ transitions (Site.step o py) {} actions, OwnershipKept t := by
  intro t ht
  have hstep := step_of_mem t ht
  have hbefore : Orderly t.before.shared :=
    invariant (I := fun s : Site δ => Orderly s.shared) site_step orderly_empty
      (fun t ht => ⟨hclean t ht, hexclusive t ht⟩) t ht
  have hafter : Orderly t.after.shared := site_step t hstep hbefore ⟨hclean t ht, hexclusive t ht⟩
  constructor
  · intro row hrow digest hne hclaims i call id verdict _ _ _ _ _
    exact hafter.owned row (rows_kept hstep hrow) hclaims.2.1 digest hne hclaims.2.2
  · intro row hrow digest hne hclaims row' hrow' haccepted hdigest
    exact hafter.rows hrow' (rows_kept hstep hrow) haccepted hclaims.2.1 hne hdigest hclaims.2.2

/-! ## One call after the other -/

/-- The call is over. -/
def Call.Over (call : Call δ) : Prop := ∃ result, call.phase = .ended result

/-- A call begins when every other one is over, or dead. -/
def InTurn (t : Transition (Site δ) (SiteAction δ)) : Prop :=
  ∀ input fromRegistry, t.action = .call (.start input fromRegistry) →
    ∀ call ∈ t.before.shared.calls, call.Over

/-- At most one call is not over. -/
def OneLive (s : Shared δ) : Prop :=
  ∀ (i j : Nat) (call other : Call δ), s.calls[i]? = some call → s.calls[j]? = some other →
    ¬ call.Over → ¬ other.Over → i = j

theorem OneLive.enter {db : Db} {call : Call δ} (h : OneLive s) (hcall : s.calls[i]? = some call)
    (hlive : ¬ call.Over) (phase : Phase δ) : OneLive ({ s with db := db }.enter i call phase) := by
  -- Who was not the live call was over, and is so still.
  have honly : ∀ j other, ({ s with db := db }.enter i call phase).calls[j]? = some other →
      ¬ other.Over → j = i := by
    intro j other hother hnot
    by_contra hne
    have hold : s.calls[j]? = some other := by
      rw [← hother]
      exact (List.getElem?_set_ne (fun hsame => hne hsame.symm)).symm
    exact hne (h j i other call hold hcall hnot hlive)
  intro j k one two hone htwo hnot hnot'
  rw [honly j one hone hnot, honly k two htwo hnot']

theorem oneLive_step (t : Transition (Site δ) (SiteAction δ))
    (hstep : t.before.step o py t.action = some t.after) (h : OneLive t.before.shared)
    (hturn : InTurn t) : OneLive t.after.shared := by
  obtain ⟨before, action, after⟩ := t
  have hmoved : SiteMoved o py before action after := siteMoved hstep
  have hphase : ∀ {call : Call δ} {phase : Phase δ}, call.phase = phase →
      (∀ result, phase ≠ .ended result) → ¬ call.Over := by
    rintro call phase hsame hnot ⟨result, hover⟩
    exact hnot result (hsame.symm.trans hover)
  cases hmoved with
  | @call action shared hshared =>
    cases moved hshared with
    | @start input fromRegistry hdedupe =>
      have hover : ∀ call ∈ before.shared.calls, call.Over := hturn input fromRegistry rfl
      have hlast : ∀ (j : Nat) (other : Call δ),
          (before.shared.calls ++ [⟨input, fromRegistry, .started⟩])[j]? = some other →
            ¬ other.Over → j = before.shared.calls.length := by
        intro j other hother hnot
        rw [List.getElem?_append] at hother
        split at hother
        · exact absurd (hover other (List.mem_of_getElem? hother)) hnot
        · rw [List.getElem?_singleton] at hother
          split at hother
          · omega
          · cases hother
      intro j k one two hone htwo hnot hnot'
      rw [hlast j one hone hnot, hlast k two htwo hnot']
    | identify hcall hstarted => exact OneLive.enter h hcall (hphase hstarted (by simp)) _
    | lookAgent hcall hidentified => exact OneLive.enter h hcall (hphase hidentified (by simp)) _
    | rule hcall hlooked => exact OneLive.enter h hcall (hphase hlooked (by simp)) _
    | record hcall hruled => exact OneLive.enter h hcall (hphase hruled (by simp)) _
    | register hcall hrecorded => exact OneLive.enter h hcall (hphase hrecorded (by simp)) _
  | @died i =>
    intro j k one two hone htwo hnot hnot'
    dsimp only [Shared.lose] at hone htwo
    rw [List.getElem?_eraseIdx] at hone htwo
    split at hone
    · split at htwo
      · exact h j k one two hone htwo hnot hnot'
      · have hsame : j = k + 1 := h j (k + 1) one two hone htwo hnot hnot'
        omega
    · split at htwo
      · have hsame : j + 1 = k := h (j + 1) k one two hone htwo hnot hnot'
        omega
      · have hsame : j + 1 = k + 1 := h (j + 1) (k + 1) one two hone htwo hnot hnot'
        omega
  | queue => exact h

/-- Calls that come one after the other have exclusive lookups. -/
theorem exclusive_in_turn {actions : List (SiteAction δ)}
    (hturn : ∀ t ∈ transitions (Site.step o py) {} actions, InTurn t) :
    ∀ t ∈ transitions (Site.step o py) {} actions, ExclusiveLookups t := by
  intro t ht action haction i call ref digest check hlook hcall hphase _ other hother hmay
  have hstart : OneLive ({} : Site δ).shared := by
    intro i j call other hcall
    cases hcall
  have hlive : OneLive t.before.shared :=
    invariant (I := fun s : Site δ => OneLive s.shared) oneLive_step hstart hturn t ht
  -- Whoever may register is live, so it is this call.
  obtain ⟨j, hj⟩ := List.getElem?_of_mem hother
  have hnot : ¬ other.Over := by
    rintro ⟨result, hover⟩
    unfold Call.MayRegister at hmay
    rw [hover] at hmay
    exact hmay
  have hnot' : ¬ call.Over := by
    rintro ⟨result, hover⟩
    rw [hphase] at hover
    cases hover
  have hsame : j = i := hlive j i other call hj hcall hnot hnot'
  subst hsame
  rw [hcall] at hj
  cases hj
  rfl

/-! ## A death before the row, and one after it -/

/-- `CleanDeath`, to be evaluated: who dies is not between its commits, or has nothing to register. -/
def isCleanDeath (t : Transition (Site δ) (SiteAction δ)) : Bool :=
  match t.action with
  | .die i =>
    match t.before.shared.calls[i]? with
    | some call =>
      match call.phase with
      | .recorded _ verdict => verdict.fromCache || decide (verdict.status ≠ .accepted)
      | _ => true
    | none => true
  | _ => true

theorem cleanDeath_of_isCleanDeath {t : Transition (Site δ) (SiteAction δ)}
    (h : isCleanDeath t = true) : CleanDeath t := by
  intro i call id verdict haction hcall hphase digest _ hclaims
  unfold isCleanDeath at h
  simp only [haction, hcall, hphase, hclaims.1, hclaims.2.1] at h
  cases h

/-- `ExclusiveLookups`, to be evaluated. -/
def hasExclusiveLookups (t : Transition (Site δ) (SiteAction δ)) : Bool :=
  match t.action with
  | .call action => isExclusive ⟨t.before.shared, action, t.after.shared⟩
  | _ => true

theorem exclusiveLookups_of {t : Transition (Site δ) (SiteAction δ)}
    (h : hasExclusiveLookups t = true) : ExclusiveLookups t := by
  intro action haction
  unfold hasExclusiveLookups at h
  rw [haction] at h
  exact exclusive_of_isExclusive h

/-- The miner's agent is accepted at the second attempt: its process dies in the first, and again
    between the commits of a replay. Another miner's packaging of it comes last. -/
def diesAndRecovers : List (SiteAction BoundTags) :=
  [.call (.start (plainFile "5A") false), .call (.identify 0 []), .call (.lookAgent 0),
    .call (.rule 0 []), .die 0, .queue .startUp,
    .call (.start (plainFile "5A") false), .call (.identify 0 []), .call (.lookAgent 0),
    .call (.rule 0 []), .call (.record 0), .call (.register 0),
    .call (.start (plainFile "5A") false), .call (.identify 1 []), .call (.record 1), .die 1,
    .call (.start { plainFile "5B" with content := some (plainTar ++ [0]) } false),
    .call (.identify 1 []), .call (.lookAgent 1), .call (.rule 1 []), .call (.record 1),
    .call (.register 1)]

theorem ownership_survives_recovery :
    (transitions (Site.step plainOutside plainInterpreter) {} diesAndRecovers).length =
      diesAndRecovers.length ∧
      ∀ t ∈ transitions (Site.step plainOutside plainInterpreter) {} diesAndRecovers,
        OwnershipKept t := by
  have hall : (transitions (Site.step plainOutside plainInterpreter) {} diesAndRecovers).all
      (fun t => isCleanDeath t && hasExclusiveLookups t) = true := by decide +kernel
  have hboth : ∀ t ∈ transitions (Site.step plainOutside plainInterpreter) {} diesAndRecovers,
      isCleanDeath t = true ∧ hasExclusiveLookups t = true := by
    intro t ht
    exact Bool.and_eq_true_iff.mp (List.all_eq_true.mp hall t ht)
  refine ⟨by decide +kernel, ownership_survives ?_ ?_⟩
  · intro t ht
    exact cleanDeath_of_isCleanDeath (hboth t ht).1
  · intro t ht
    exact exclusiveLookups_of (hboth t ht).2

/-- The process dies between the two commits. The resubmission is answered from the row, and registers
    nothing; then another miner's packaging of the agent is accepted. -/
def diesBetweenCommits : List (SiteAction BoundTags) :=
  [.call (.start (plainFile "5A") false), .call (.identify 0 []), .call (.lookAgent 0),
    .call (.rule 0 []), .call (.record 0), .die 0,
    .call (.start (plainFile "5A") false), .call (.identify 0 []), .call (.record 0),
    .call (.register 0),
    .call (.start { plainFile "5B" with content := some (plainTar ++ [0]) } false),
    .call (.identify 1 []), .call (.lookAgent 1), .call (.rule 1 []), .call (.record 1)]

/-- The miner has a fresh acceptance of the agent. -/
def hasAcceptance (db : Db) (miner digest : String) : Bool :=
  db.submissions.any fun row => !row.verdict.fromCache && decide (row.verdict.status = .accepted) &&
    row.verdict.agentDigest == some digest && row.verdict.minerId == miner

theorem acceptance_of_has {db : Db} {miner digest : String} (h : hasAcceptance db miner digest = true) :
    ∃ row ∈ db.submissions, Claims row.verdict digest ∧ row.verdict.minerId = miner := by
  obtain ⟨row, hrow, hsame⟩ := List.any_eq_true.mp h
  simp only [Bool.and_eq_true, Bool.not_eq_true', decide_eq_true_eq, beq_iff_eq] at hsame
  obtain ⟨⟨⟨hfresh, haccepted⟩, hdigest⟩, hminer⟩ := hsame
  exact ⟨row, hrow, ⟨hfresh, haccepted, hdigest⟩, hminer⟩

theorem ownership_lost :
    ¬ ∀ (o : Outside BoundTags) (py : Interpreter) (actions : List (SiteAction BoundTags)),
      ∀ t ∈ transitions (Site.step o py) {} actions, OwnershipKept t := by
  intro h
  let digest := "6b86f22ab1510389f4c0de81e9754aea6d0321a2794665ba71c39cc84344b4d7"
  have hboth : (transitions (Site.step plainOutside plainInterpreter) {} diesBetweenCommits).any
      (fun t => hasAcceptance t.before.shared.db "5A" digest &&
        hasAcceptance t.after.shared.db "5B" digest) = true := by decide +kernel
  obtain ⟨t, hmem, ht⟩ := List.any_eq_true.mp hboth
  obtain ⟨hfirst, hsecond⟩ := Bool.and_eq_true_iff.mp ht
  obtain ⟨row, hrow, hclaims, hminer⟩ := acceptance_of_has hfirst
  obtain ⟨row', hrow', hclaims', hminer'⟩ := acceptance_of_has hsecond
  have hsame := (h _ _ _ t hmem).alone row hrow digest (by decide) hclaims row' hrow' hclaims'.2.1
    hclaims'.2.2
  rw [hminer, hminer'] at hsame
  exact absurd hsame (by decide)

end TaoSubnet
