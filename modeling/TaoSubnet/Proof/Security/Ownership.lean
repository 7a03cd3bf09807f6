import TaoSubnet.Proof.Security.Records
import TaoSubnet.Proof.Security.Statements
import TaoSubnet.Proof.Security.Target

/-!
# Who owns an agent

The lookup of an agent, the row of its acceptance and its registration are three statements, and
only the last is protected by a key. So an agent has one owner in every interleaving in which no call
looks it up while another miner's call, which has looked it up, may still come to register it; and two
owners, one of whom the agents do not know, in some others.
-/

namespace TaoSubnet

open Py Machine

variable {δ : Type} {o : Outside δ} {py : Interpreter}

/-! ## Vocabulary -/

def Call.miner (call : Call δ) : String := call.input.submission.minerId

/-- A verdict that registers the agent. -/
def Claims (verdict : Verdict) (digest : String) : Prop :=
  verdict.fromCache = false ∧ verdict.status = .accepted ∧ verdict.agentDigest = some digest

/-- The call has looked the agent up, and may come to register it. -/
def Call.MayRegister (call : Call δ) (digest : String) : Prop :=
  match call.phase with
  | .agentLooked _ agentDigest _ _ => agentDigest = some digest
  | .ruled verdict => Claims verdict digest
  | .recorded _ verdict => Claims verdict digest
  | _ => False

/-- The verdict a call has obtained. -/
def Call.verdict (call : Call δ) : Option Verdict :=
  match call.phase with
  | .ruled verdict => some verdict
  | .recorded _ verdict => some verdict
  | .ended (.ok (_, verdict)) => some verdict
  | _ => none

/-- A call is between the commit of its acceptance and the registration of the agent. -/
def Pending (s : Shared δ) (digest miner : String) : Prop :=
  ∃ (i : Nat) (call : Call δ) (id : Nat) (verdict : Verdict), s.calls[i]? = some call ∧
    call.phase = .recorded id verdict ∧ Claims verdict digest ∧ call.miner = miner

/-- An agent is looked up when no call of another miner's may still come to register it. -/
def Exclusive (t : Transition (Shared δ) (CallAction δ)) : Prop :=
  ∀ i call ref digest check, t.action = .lookAgent i → t.before.calls[i]? = some call →
    call.phase = .identified ref (some digest) check → digest ≠ "" →
      ∀ other ∈ t.before.calls, other.MayRegister digest → other.miner = call.miner

/-- All that is on record of the agent is `miner`'s. -/
structure Sole (db : Db) (digest miner : String) : Prop where
  rows : ∀ row ∈ db.submissions, row.verdict.status = .accepted →
    row.verdict.agentDigest = some digest → row.verdict.minerId = miner
  owner : ∀ known, db.findAgent digest = some known → known.ownerMinerId = miner

theorem Sole.recordVerdict {db : Db} {digest miner : String} {verdict : Verdict}
    (h : Sole db digest miner) (hnew : verdict.status = .accepted →
      verdict.agentDigest = some digest → verdict.minerId = miner) :
    Sole (db.recordVerdict verdict).2 digest miner where
  rows := by
    intro row hrow haccepted hdigest
    rcases List.mem_append.mp hrow with hold | hlast
    · exact h.rows row hold haccepted hdigest
    · rw [List.mem_singleton.mp hlast] at haccepted hdigest ⊢
      exact hnew haccepted hdigest
  owner := h.owner

theorem Sole.registerAgent {db : Db} {digest miner : String} {verdict : Verdict} {id : Nat}
    (h : Sole db digest miner) (hnew : verdict.status = .accepted →
      verdict.agentDigest = some digest → verdict.minerId = miner) :
    Sole (db.registerAgent verdict id) digest miner where
  rows := by
    intro row hrow haccepted hdigest
    rw [registerAgent_submissions] at hrow
    exact h.rows row hrow haccepted hdigest
  owner := by
    intro known hknown
    rcases findAgent_registerAgent hknown with hold | ⟨hdigest, haccepted, howner, -⟩
    · exact h.owner known hold
    · rw [howner]
      exact hnew haccepted hdigest

/-! ## What a call relies on -/

/-- What is known in each phase of a call. -/
def Call.Sound (db : Db) (call : Call δ) : Prop :=
  match call.phase with
  | .started => True
  | .identified _ agentDigest check => check.evidence.agentDigest = agentDigest
  | .agentLooked _ agentDigest agents check =>
    check.evidence.agentDigest = agentDigest ∧ agents <+: db.agents ∧
      ∀ digest, digest ≠ "" → agentDigest = some digest →
        (∀ known, Db.findAgent { agents := agents } digest = some known →
          known.ownerMinerId = call.miner) → Sole db digest call.miner
  | .ruled verdict => verdict.minerId = call.miner ∧
    (∀ digest, digest ≠ "" → Claims verdict digest → Sole db digest call.miner) ∧
    (verdict.fromCache = true → verdict.status = .accepted → ∃ row ∈ db.submissions,
      row.verdict.status = .accepted ∧ row.verdict.minerId = call.miner ∧
        row.verdict.agentDigest = verdict.agentDigest)
  | .recorded id verdict => verdict.minerId = call.miner ∧
    db.findSubmission id = some ⟨id, verdict⟩ ∧
    ∀ digest, digest ≠ "" → Claims verdict digest → Sole db digest call.miner
  | .ended (.ok (id, verdict)) =>
    verdict.minerId = call.miner ∧ (⟨id, verdict⟩ : SubmissionRow) ∈ db.submissions
  | .ended (.error _) => True

/-- A call stays sound while the database grows, as long as what it may register stays its own. -/
theorem Call.Sound.mono {db db' : Db} {call : Call δ} (h : call.Sound db)
    (hids : ∀ id row, db.findSubmission id = some row → db'.findSubmission id = some row)
    (hrows : ∀ row ∈ db.submissions, row ∈ db'.submissions) (hagents : db.agents <+: db'.agents)
    (hsole : ∀ digest, digest ≠ "" → call.MayRegister digest → Sole db digest call.miner →
      Sole db' digest call.miner) : call.Sound db' := by
  unfold Call.Sound Call.MayRegister at *
  cases hphase : call.phase with
  | started => trivial
  | identified ref agentDigest check =>
    rw [hphase] at h
    exact h
  | agentLooked ref agentDigest agents check =>
    rw [hphase] at h hsole
    obtain ⟨hdigest, hprefix, hmine⟩ := h
    refine ⟨hdigest, hprefix.trans hagents, ?_⟩
    intro digest hne hsame howner
    exact hsole digest hne hsame (hmine digest hne hsame howner)
  | ruled verdict =>
    rw [hphase] at h hsole
    obtain ⟨hminer, hclaims, hcached⟩ := h
    refine ⟨hminer, fun digest hne hclaim => hsole digest hne hclaim (hclaims digest hne hclaim), ?_⟩
    intro hreplay haccepted
    obtain ⟨row, hrow, hrest⟩ := hcached hreplay haccepted
    exact ⟨row, hrows row hrow, hrest⟩
  | recorded id verdict =>
    rw [hphase] at h hsole
    obtain ⟨hminer, hfound, hclaims⟩ := h
    exact ⟨hminer, hids _ _ hfound,
      fun digest hne hclaim => hsole digest hne hclaim (hclaims digest hne hclaim)⟩
  | ended result =>
    cases result with
    | error e => trivial
    | ok recorded =>
      rw [hphase] at h
      exact ⟨h.1, hrows _ h.2⟩

/-- The first piece of a call: what its file settles claims nothing. -/
theorem sound_identifyStep (o : Outside δ) (py : Interpreter) (db : Db) (call : Call δ) (d : δ) :
    ({ call with phase := identifyStep o py call.input call.fromRegistry db d } : Call δ).Sound db ∧
      ∀ digest, ¬ ({ call with
        phase := identifyStep o py call.input call.fromRegistry db d } : Call δ).MayRegister digest := by
  rcases identifyStep_cases o py call.input call.fromRegistry db d with
    ⟨ref, agentDigest, check, hphase, hdigest⟩ | ⟨verdict, hphase⟩ | ⟨e, hphase⟩
  · rw [hphase]
    exact ⟨hdigest, fun _ h => h⟩
  · obtain ⟨hminer, hkind⟩ := identifyStep_ruled hphase
    rw [hphase]
    have hnone : ∀ digest, ¬ Claims verdict digest := by
      rintro digest ⟨hfresh, haccepted, -⟩
      rcases hkind with hrejected | ⟨row, -, -, hcached, -⟩
      · rw [hrejected] at haccepted
        cases haccepted
      · rw [hcached] at hfresh
        cases hfresh
    refine ⟨⟨hminer, fun digest _ hclaim => absurd hclaim (hnone digest), ?_⟩, hnone⟩
    intro _ haccepted
    rcases hkind with hrejected | ⟨row, hrow, howner, -, hstatus, hdigest⟩
    · rw [hrejected] at haccepted
      cases haccepted
    · exact ⟨row, hrow, hstatus.symm.trans haccepted, howner, hdigest.symm⟩
  · rw [hphase]
    exact ⟨trivial, fun _ h => h⟩

/-- The last piece of a check: what it accepts was looked up, and replays go back to its miner's own
    row. -/
theorem sound_ruleStep (o : Outside δ) (py : Interpreter) {db : Db} {call : Call δ} {ref : String}
    {agentDigest : Option String} {agents : List AgentRow} {check : CheckState δ}
    (hconsistent : Consistent db) (hdedupe : call.input.dedupe = true)
    (hphase : call.phase = .agentLooked ref agentDigest agents check) (h : call.Sound db) (d : δ) :
    ({ call with phase := ruleStep o py call.input ref agentDigest agents check db d } :
        Call δ).Sound db ∧
      ∀ digest, ({ call with phase := ruleStep o py call.input ref agentDigest agents check db d } :
        Call δ).MayRegister digest → agentDigest = some digest := by
  unfold Call.Sound at h
  rw [hphase] at h
  obtain ⟨hevidence, hprefix, hmine⟩ := h
  rcases afterStages_cases o call.input (ruleOn o py call.input ref agentDigest { check with
    world := { check.world with
      outside := d
      db := { submissions := db.submissions, agents := agents } } }) with
    ⟨verdict, hnext⟩ | ⟨e, hnext⟩
  · have hruled : ruleStep o py call.input ref agentDigest agents check db d = .ruled verdict := hnext
    have hruling := ruleStep_ruled hevidence hruled
    have hminer := hruling.minerId
    rw [hruled]
    have hclaim : ∀ digest, Claims verdict digest → agentDigest = some digest ∧
        ∀ known, Db.findAgent { agents := agents } digest = some known →
          digest ≠ "" → known.ownerMinerId = call.miner := by
      rintro digest ⟨hfresh, haccepted, hdigest⟩
      cases hruling with
      | failed => cases haccepted
      | replayedFile => cases hfresh
      | copiedFile => cases haccepted
      | copiedAgent => cases haccepted
      | replayedAgent => cases hfresh
      | accepted hfile hunknown hsame =>
        have hlooked : agentDigest = some digest := hsame.symm.trans hdigest
        refine ⟨hlooked, fun known hknown hne => ?_⟩
        refine (hunknown known ?_).1
        rw [lookupsIn, hlooked, agentRow_find _ hdedupe hne]
        exact hknown
    have hcached : verdict.fromCache = true → verdict.status = .accepted →
        ∃ row ∈ db.submissions, row.verdict.status = .accepted ∧
          row.verdict.minerId = call.miner ∧ row.verdict.agentDigest = verdict.agentDigest := by
      intro hreplay haccepted
      cases hruling with
      | failed => cases hreplay
      | copiedFile => cases hreplay
      | copiedAgent => cases hreplay
      | accepted => cases hreplay
      | replayedFile hrow =>
        rw [lookupsIn, fileRow] at hrow
        simp at hrow
      | @replayedAgent known previous evidence hfile hknown howner hprevious hsame =>
        obtain ⟨name, rfl, hne, hfound⟩ := agentRow_some hknown
        -- Who was registered when the agent was looked up is registered still.
        have hnow : db.findAgent name = some known := findAgent_prefix hprefix hfound
        obtain ⟨row, hrow, -, hfirst, hdigest, hminer'⟩ := hconsistent.firsts name known hnow
        have hlookup : previousRow (some known) { submissions := db.submissions, agents := agents } =
            some previous := by
          rw [← hknown]
          exact hprevious
        have hsame' : row = previous := by
          have hfind : db.findSubmission known.firstSubmission = some previous := hlookup
          exact Option.some.inj (hrow.symm.trans hfind)
        subst hsame'
        refine ⟨row, List.mem_of_find?_eq_some hrow, hfirst, hminer'.trans howner, ?_⟩
        show row.verdict.agentDigest = evidence.agentDigest.or row.verdict.agentDigest
        rw [hsame, hdigest]
        rfl
    refine ⟨⟨hminer, ?_, hcached⟩, fun digest hclaims => (hclaim digest hclaims).1⟩
    intro digest hne hclaims
    obtain ⟨hsame, howner⟩ := hclaim digest hclaims
    exact hmine digest hne hsame fun known hknown => howner known hknown hne
  · have hended : ruleStep o py call.input ref agentDigest agents check db d = .ended (.error e) :=
      hnext
    rw [hended]
    exact ⟨trivial, fun _ h => h.elim⟩

/-! ## The invariant -/

/-- Every accepted row's miner is the registered owner, or about to be. -/
def Owned (s : Shared δ) : Prop :=
  ∀ row ∈ s.db.submissions, row.verdict.status = .accepted → ∀ digest, digest ≠ "" →
    row.verdict.agentDigest = some digest →
      (∃ known, s.db.findAgent digest = some known ∧ known.ownerMinerId = row.verdict.minerId) ∨
        Pending s digest row.verdict.minerId

structure Orderly (s : Shared δ) : Prop where
  consistent : Consistent s.db
  deduped : ∀ call ∈ s.calls, call.input.dedupe = true
  sound : ∀ call ∈ s.calls, call.Sound s.db
  exclusive : ∀ call ∈ s.calls, ∀ other ∈ s.calls, ∀ digest, digest ≠ "" →
    call.MayRegister digest → other.MayRegister digest → other.miner = call.miner
  owned : Owned s

variable {s s' : Shared δ} {i : Nat} {call : Call δ} {phase : Phase δ} {db : Db}

theorem mem_enter {other : Call δ} (h : other ∈ ({ s with db := db }.enter i call phase).calls) :
    other ∈ s.calls ∨ other = { call with phase := phase } := List.mem_or_eq_of_mem_set h

/-- A call that is between its commits stays there while another one moves. -/
theorem pending_enter {digest miner : String} (hcall : s.calls[i]? = some call)
    (hnot : ∀ id verdict, call.phase = .recorded id verdict → ¬ Claims verdict digest)
    (h : Pending s digest miner) : Pending ({ s with db := db }.enter i call phase) digest miner := by
  obtain ⟨j, other, id, verdict, hother, hphase, hclaims, hminer⟩ := h
  refine ⟨j, other, id, verdict, ?_, hphase, hclaims, hminer⟩
  have hne : i ≠ j := by
    intro hsame
    subst hsame
    rw [hcall] at hother
    cases hother
    exact hnot id verdict hphase hclaims
  show (s.calls.set i _)[j]? = some other
  rw [List.getElem?_set_ne hne]
  exact hother

/-- One call moves on, and the database may have changed with it. -/
theorem Orderly.move (h : Orderly s) (hcall : s.calls[i]? = some call) (hconsistent : Consistent db)
    (hothers : ∀ other ∈ s.calls, other.Sound db)
    (hsound : ({ call with phase := phase } : Call δ).Sound db)
    (hclaims : ∀ digest, digest ≠ "" → ({ call with phase := phase } : Call δ).MayRegister digest →
      ∀ other ∈ s.calls, other.MayRegister digest → other.miner = call.miner)
    (howned : Owned ({ s with db := db }.enter i call phase)) :
    Orderly ({ s with db := db }.enter i call phase) where
  consistent := hconsistent
  deduped := by
    intro other hother
    rcases mem_enter hother with hold | rfl
    · exact h.deduped other hold
    · exact h.deduped call (List.mem_of_getElem? hcall)
  sound := by
    intro other hother
    rcases mem_enter hother with hold | rfl
    · exact hothers other hold
    · exact hsound
  exclusive := by
    intro one hone two htwo digest hne hclaim hclaim'
    rcases mem_enter hone with hold | rfl
    · rcases mem_enter htwo with hold' | rfl
      · exact h.exclusive one hold two hold' digest hne hclaim hclaim'
      · exact (hclaims digest hne hclaim' one hold hclaim).symm
    · rcases mem_enter htwo with hold' | rfl
      · exact hclaims digest hne hclaim two hold' hclaim'
      · rfl
  owned := howned

/-- A step that writes nothing. -/
theorem Orderly.enter (h : Orderly s) (hcall : s.calls[i]? = some call)
    (hsound : ({ call with phase := phase } : Call δ).Sound s.db)
    (hclaims : ∀ digest, digest ≠ "" → ({ call with phase := phase } : Call δ).MayRegister digest →
      ∀ other ∈ s.calls, other.MayRegister digest → other.miner = call.miner)
    (hnot : ∀ id verdict, call.phase ≠ .recorded id verdict) : Orderly (s.enter i call phase) := by
  refine h.move hcall h.consistent h.sound hsound hclaims ?_
  intro row hrow haccepted digest hne hdigest
  refine (h.owned row hrow haccepted digest hne hdigest).imp_right fun hpending => ?_
  exact pending_enter hcall (fun id verdict hphase => absurd hphase (hnot id verdict)) hpending

/-- What a call may register is its own to register. -/
theorem Orderly.claims (h : Orderly s) (hcall : s.calls[i]? = some call)
    (hbefore : ∀ digest, ({ call with phase := phase } : Call δ).MayRegister digest →
      call.MayRegister digest) : ∀ digest, digest ≠ "" →
    ({ call with phase := phase } : Call δ).MayRegister digest → ∀ other ∈ s.calls,
      other.MayRegister digest → other.miner = call.miner := by
  intro digest hne hclaim other hother hclaim'
  exact h.exclusive call (List.mem_of_getElem? hcall) other hother digest hne
    (hbefore digest hclaim) hclaim'

/-! ## Step by step -/

theorem orderly_start (h : Orderly s) {input : CheckInput} (fromRegistry : Bool)
    (hdedupe : input.dedupe = true) :
    Orderly { s with calls := s.calls ++ [⟨input, fromRegistry, .started⟩] } where
  consistent := h.consistent
  deduped := by
    intro other hother
    rcases List.mem_append.mp hother with hold | hnew
    · exact h.deduped other hold
    · rw [List.mem_singleton.mp hnew]
      exact hdedupe
  sound := by
    intro other hother
    rcases List.mem_append.mp hother with hold | hnew
    · exact h.sound other hold
    · rw [List.mem_singleton.mp hnew]
      exact trivial
  exclusive := by
    intro one hone two htwo digest hne hclaim hclaim'
    rcases List.mem_append.mp hone with hold | hnew
    · rcases List.mem_append.mp htwo with hold' | hnew'
      · exact h.exclusive one hold two hold' digest hne hclaim hclaim'
      · rw [List.mem_singleton.mp hnew'] at hclaim'
        exact hclaim'.elim
    · rw [List.mem_singleton.mp hnew] at hclaim
      exact hclaim.elim
  owned := by
    intro row hrow haccepted digest hne hdigest
    refine (h.owned row hrow haccepted digest hne hdigest).imp_right fun hpending => ?_
    obtain ⟨j, other, id, verdict, hother, hrest⟩ := hpending
    refine ⟨j, other, id, verdict, ?_, hrest⟩
    show (s.calls ++ _)[j]? = some other
    rw [List.getElem?_append_left (List.getElem?_eq_some_iff.mp hother).1]
    exact hother

theorem orderly_lookAgent (h : Orderly s) (hcall : s.calls[i]? = some call) {ref : String}
    {agentDigest : Option String} {check : CheckState δ}
    (hphase : call.phase = .identified ref agentDigest check)
    (hexclusive : ∀ digest, agentDigest = some digest → digest ≠ "" → ∀ other ∈ s.calls,
      other.MayRegister digest → other.miner = call.miner) :
    Orderly (s.enter i call (.agentLooked ref agentDigest s.db.agents check)) := by
  have hsound := h.sound call (List.mem_of_getElem? hcall)
  unfold Call.Sound at hsound
  rw [hphase] at hsound
  refine h.enter hcall ⟨hsound, List.prefix_rfl, ?_⟩ ?_ ?_
  · intro digest hne hsame howner
    refine ⟨?_, howner⟩
    -- A row of another miner's would be registered to that miner, or about to be.
    intro row hrow haccepted hdigest
    rcases h.owned row hrow haccepted digest hne hdigest with
      ⟨known, hknown, hminer⟩ | ⟨j, other, id, verdict, hother, hrecorded, hclaims, hminer⟩
    · exact hminer.symm.trans (howner known hknown)
    · have hmay : other.MayRegister digest := by
        unfold Call.MayRegister
        rw [hrecorded]
        exact hclaims
      exact hminer.symm.trans (hexclusive digest hsame hne other (List.mem_of_getElem? hother) hmay)
  · intro digest hne hsame
    exact hexclusive digest hsame hne
  · intro id verdict hrecorded
    rw [hphase] at hrecorded
    cases hrecorded

theorem orderly_record (h : Orderly s) (hcall : s.calls[i]? = some call) {verdict : Verdict}
    (hphase : call.phase = .ruled verdict) :
    Orderly ({ s with db := (s.db.recordVerdict verdict).2 }.enter i call
      (.recorded (s.db.recordVerdict verdict).1 verdict)) := by
  have hmem := List.mem_of_getElem? hcall
  have hsound := h.sound call hmem
  unfold Call.Sound at hsound
  rw [hphase] at hsound
  obtain ⟨hminer, hclaims, hcached⟩ := hsound
  have hmay : ∀ digest, Claims verdict digest → call.MayRegister digest := by
    intro digest hclaim
    unfold Call.MayRegister
    rw [hphase]
    exact hclaim
  -- The row that is written is its miner's, whoever else the agent is still the sole matter of.
  have hsole : ∀ digest miner, digest ≠ "" → Sole s.db digest miner →
      (Claims verdict digest → call.miner = miner) →
      Sole (s.db.recordVerdict verdict).2 digest miner := by
    intro digest miner hne hold hmine
    refine hold.recordVerdict fun haccepted hdigest => ?_
    cases hfresh : verdict.fromCache with
    | false => exact hminer.trans (hmine ⟨hfresh, haccepted, hdigest⟩)
    | true =>
      obtain ⟨row, hrow, hrowAccepted, hrowMiner, hrowDigest⟩ := hcached hfresh haccepted
      rw [hminer, ← hrowMiner]
      exact hold.rows row hrow hrowAccepted (hrowDigest.trans hdigest)
  refine h.move hcall (h.consistent.recordVerdict verdict) ?_ ⟨hminer, ?_, ?_⟩ ?_ ?_
  · intro other hother
    refine (h.sound other hother).mono (fun _ _ hfound => findSubmission_mono verdict hfound)
      (fun row hrow => List.mem_append_left _ hrow) List.prefix_rfl ?_
    intro digest hne hclaim hold
    exact hsole digest other.miner hne hold fun hmine =>
      h.exclusive other hother call hmem digest hne hclaim (hmay digest hmine)
  · exact h.consistent.findSubmission_new verdict
  · intro digest hne hclaim
    exact hsole digest call.miner hne (hclaims digest hne hclaim) fun _ => rfl
  · exact h.claims hcall hmay
  · intro row hrow haccepted digest hne hdigest
    have hstay : ∀ miner, Pending s digest miner → Pending
        ({ s with db := (s.db.recordVerdict verdict).2 }.enter i call
          (.recorded (s.db.recordVerdict verdict).1 verdict)) digest miner := by
      intro miner hpending
      refine pending_enter hcall (fun id found hrecorded => ?_) hpending
      rw [hphase] at hrecorded
      cases hrecorded
    rcases List.mem_append.mp hrow with hold | hnew
    · exact (h.owned row hold haccepted digest hne hdigest).imp_right (hstay _)
    · rw [List.mem_singleton.mp hnew] at haccepted hdigest ⊢
      cases hfresh : verdict.fromCache with
      | false =>
        have hlt := (List.getElem?_eq_some_iff.mp hcall).1
        refine .inr ⟨i, _, _, verdict, List.getElem?_set_self hlt, rfl,
          ⟨hfresh, haccepted, hdigest⟩, hminer.symm⟩
      | true =>
        obtain ⟨first, hfirst, hfirstAccepted, hfirstMiner, hfirstDigest⟩ := hcached hfresh haccepted
        have howned := h.owned first hfirst hfirstAccepted digest hne (hfirstDigest.trans hdigest)
        rw [hfirstMiner, ← hminer] at howned
        exact howned.imp_right (hstay _)

theorem orderly_register (h : Orderly s) (hcall : s.calls[i]? = some call) {id : Nat}
    {verdict : Verdict} (hphase : call.phase = .recorded id verdict) :
    Orderly ({ s with
      db := if verdict.fromCache then s.db else s.db.registerAgent verdict id }.enter i call
        (.ended (.ok (id, verdict)))) := by
  have hmem := List.mem_of_getElem? hcall
  have hsound := h.sound call hmem
  unfold Call.Sound at hsound
  rw [hphase] at hsound
  obtain ⟨hminer, hfound, hclaims⟩ := hsound
  have hmay : ∀ digest, Claims verdict digest → call.MayRegister digest := by
    intro digest hclaim
    unfold Call.MayRegister
    rw [hphase]
    exact hclaim
  cases hfresh : verdict.fromCache with
  | true =>
    rw [if_pos rfl]
    refine h.move hcall h.consistent h.sound ⟨hminer, List.mem_of_find?_eq_some hfound⟩
      (fun _ _ hclaim => hclaim.elim) ?_
    intro row hrow haccepted digest hne hdigest
    refine (h.owned row hrow haccepted digest hne hdigest).imp_right fun hpending => ?_
    refine pending_enter hcall (fun _ found hrecorded hclaim => ?_) hpending
    rw [hphase] at hrecorded
    cases hrecorded
    have hcached := hclaim.1
    rw [hfresh] at hcached
    cases hcached
  | false =>
    rw [if_neg Bool.false_ne_true]
    refine h.move hcall (h.consistent.registerAgent hfound hfresh) ?_ ⟨hminer, ?_⟩
      (fun _ _ hclaim => hclaim.elim) ?_
    · intro other hother
      refine (h.sound other hother).mono (fun _ _ hold => ?_) (fun row hrow => ?_)
        (agents_prefix_registerAgent s.db verdict id) ?_
      · rw [Db.findSubmission, registerAgent_submissions]
        exact hold
      · rw [registerAgent_submissions]
        exact hrow
      · intro digest hne hclaim hold
        refine hold.registerAgent fun haccepted hdigest => ?_
        rw [hminer]
        exact h.exclusive other hother call hmem digest hne hclaim
          (hmay digest ⟨hfresh, haccepted, hdigest⟩)
    · rw [registerAgent_submissions]
      exact List.mem_of_find?_eq_some hfound
    · intro row hrow haccepted digest hne hdigest
      have hrow' : row ∈ s.db.submissions := by
        have hsame := registerAgent_submissions s.db verdict id
        exact hsame ▸ hrow
      rcases h.owned row hrow' haccepted digest hne hdigest with ⟨known, hknown, howner⟩ | hpending
      · exact .inl ⟨known, findAgent_mono verdict id hknown, howner⟩
      · by_cases hclaim : Claims verdict digest
        · -- This is the registration the row was waiting for, or the owner registers again.
          left
          obtain ⟨known, hknown⟩ := findAgent_registered id hclaim.2.2 hne hclaim.2.1
          refine ⟨known, hknown, ?_⟩
          have hsole := hclaims digest hne hclaim
          rw [hsole.rows row hrow' haccepted hdigest]
          rcases findAgent_registerAgent hknown with hold | ⟨-, -, howner, -⟩
          · exact hsole.owner known hold
          · exact howner.trans hminer
        · right
          refine pending_enter hcall (fun _ found hrecorded => ?_) hpending
          rw [hphase] at hrecorded
          cases hrecorded
          exact hclaim

theorem orderly_step (t : Transition (Shared δ) (CallAction δ))
    (hstep : t.before.step o py t.action = some t.after) (h : Orderly t.before)
    (hexclusive : Exclusive t) : Orderly t.after := by
  obtain ⟨before, action, after⟩ := t
  have hmoved : Moved o py before action after := moved hstep
  dsimp only at h ⊢
  cases hmoved with
  | start hdedupe => exact orderly_start h _ hdedupe
  | identify hcall hphase =>
    obtain ⟨hsound, hnone⟩ := sound_identifyStep o py before.db _ _
    refine h.enter hcall hsound (fun digest _ hclaim => absurd hclaim (hnone digest)) ?_
    intro id verdict hrecorded
    rw [hphase] at hrecorded
    cases hrecorded
  | lookAgent hcall hphase =>
    refine orderly_lookAgent h hcall hphase ?_
    intro digest hsame hne
    subst hsame
    exact hexclusive _ _ _ digest _ rfl hcall hphase hne
  | rule hcall hphase =>
    have hmem := List.mem_of_getElem? hcall
    obtain ⟨hsound, hclaim⟩ := sound_ruleStep o py h.consistent (h.deduped _ hmem) hphase
      (h.sound _ hmem) _
    refine h.enter hcall hsound (h.claims hcall fun digest hmay => ?_) ?_
    · unfold Call.MayRegister
      rw [hphase]
      exact hclaim digest hmay
    · intro id verdict hrecorded
      rw [hphase] at hrecorded
      cases hrecorded
  | record hcall hphase => exact orderly_record h hcall hphase
  | register hcall hphase => exact orderly_register h hcall hphase

/-! ## Every interleaving -/

/-- The accepted rows of an agent are one miner's, and so are the verdicts that were obtained for it;
    nobody else is registered as its owner, and that miner is, unless a call of that miner's is between
    its two commits. -/
structure OneOwnerEach (s : Shared δ) : Prop where
  rows : ∀ row ∈ s.db.submissions, ∀ row' ∈ s.db.submissions, row.verdict.status = .accepted →
    row'.verdict.status = .accepted → ∀ digest, digest ≠ "" →
      row.verdict.agentDigest = some digest → row'.verdict.agentDigest = some digest →
        row.verdict.minerId = row'.verdict.minerId
  owner : ∀ row ∈ s.db.submissions, row.verdict.status = .accepted → ∀ digest, digest ≠ "" →
    row.verdict.agentDigest = some digest → ∀ known, s.db.findAgent digest = some known →
      known.ownerMinerId = row.verdict.minerId
  registered : ∀ row ∈ s.db.submissions, row.verdict.status = .accepted → ∀ digest, digest ≠ "" →
    row.verdict.agentDigest = some digest →
      (∃ known, s.db.findAgent digest = some known) ∨ Pending s digest row.verdict.minerId
  verdicts : ∀ call ∈ s.calls, ∀ call' ∈ s.calls, ∀ verdict verdict',
    call.verdict = some verdict → call'.verdict = some verdict' → verdict.status = .accepted →
      verdict'.status = .accepted → ∀ digest, digest ≠ "" → verdict.agentDigest = some digest →
        verdict'.agentDigest = some digest → call.miner = call'.miner

theorem Orderly.sole (h : Orderly s) {digest miner : String} (hne : digest ≠ "")
    (hpending : Pending s digest miner) : Sole s.db digest miner := by
  obtain ⟨j, other, id, verdict, hother, hrecorded, hclaims, hminer⟩ := hpending
  have hsound := h.sound other (List.mem_of_getElem? hother)
  unfold Call.Sound at hsound
  rw [hrecorded] at hsound
  rw [← hminer]
  exact hsound.2.2 digest hne hclaims

theorem Orderly.known (h : Orderly s) {row : SubmissionRow} (hrow : row ∈ s.db.submissions)
    (haccepted : row.verdict.status = .accepted) {digest : String} (hne : digest ≠ "")
    (hdigest : row.verdict.agentDigest = some digest) {known : AgentRow}
    (hknown : s.db.findAgent digest = some known) :
    known.ownerMinerId = row.verdict.minerId := by
  rcases h.owned row hrow haccepted digest hne hdigest with ⟨found, hfound, howner⟩ | hpending
  · rw [hknown] at hfound
    cases hfound
    exact howner
  · exact (h.sole hne hpending).owner known hknown

theorem Orderly.rows (h : Orderly s) {row row' : SubmissionRow} (hrow : row ∈ s.db.submissions)
    (hrow' : row' ∈ s.db.submissions) (haccepted : row.verdict.status = .accepted)
    (haccepted' : row'.verdict.status = .accepted) {digest : String} (hne : digest ≠ "")
    (hdigest : row.verdict.agentDigest = some digest)
    (hdigest' : row'.verdict.agentDigest = some digest) :
    row.verdict.minerId = row'.verdict.minerId := by
  rcases h.owned row hrow haccepted digest hne hdigest with ⟨known, hknown, howner⟩ | hpending
  · exact howner.symm.trans (h.known hrow' haccepted' hne hdigest' hknown)
  · exact ((h.sole hne hpending).rows row' hrow' haccepted' hdigest').symm

/-- An acceptance that was obtained is on record, or the agent is the call's alone to register. -/
theorem Orderly.obtained (h : Orderly s) {call : Call δ} (hmem : call ∈ s.calls) {verdict : Verdict}
    (hverdict : call.verdict = some verdict) (haccepted : verdict.status = .accepted)
    {digest : String} (hne : digest ≠ "") (hdigest : verdict.agentDigest = some digest) :
    (∃ row ∈ s.db.submissions, row.verdict.status = .accepted ∧
      row.verdict.agentDigest = some digest ∧ row.verdict.minerId = call.miner) ∨
      (call.MayRegister digest ∧ Sole s.db digest call.miner) := by
  have hsound := h.sound call hmem
  unfold Call.Sound at hsound
  unfold Call.verdict at hverdict
  unfold Call.MayRegister
  cases hphase : call.phase with
  | started =>
    rw [hphase] at hverdict
    cases hverdict
  | identified ref agentDigest check =>
    rw [hphase] at hverdict
    cases hverdict
  | agentLooked ref agentDigest agents check =>
    rw [hphase] at hverdict
    cases hverdict
  | ruled found =>
    rw [hphase] at hverdict hsound
    cases hverdict
    obtain ⟨hminer, hclaims, hcached⟩ := hsound
    cases hfresh : verdict.fromCache with
    | false =>
      have hclaim : Claims verdict digest := ⟨hfresh, haccepted, hdigest⟩
      exact .inr ⟨hclaim, hclaims digest hne hclaim⟩
    | true =>
      obtain ⟨row, hrow, hfirst, howner, hsame⟩ := hcached hfresh haccepted
      exact .inl ⟨row, hrow, hfirst, hsame.trans hdigest, howner⟩
  | recorded id found =>
    rw [hphase] at hverdict hsound
    cases hverdict
    obtain ⟨hminer, hfound, -⟩ := hsound
    exact .inl ⟨_, List.mem_of_find?_eq_some hfound, haccepted, hdigest, hminer⟩
  | ended result =>
    rw [hphase] at hverdict hsound
    cases result with
    | error e => cases hverdict
    | ok recorded =>
      cases hverdict
      exact .inl ⟨_, hsound.2, haccepted, hdigest, hsound.1⟩

theorem Orderly.oneOwnerEach (h : Orderly s) : OneOwnerEach s where
  rows := by
    intro row hrow row' hrow' haccepted haccepted' digest hne hdigest hdigest'
    exact h.rows hrow hrow' haccepted haccepted' hne hdigest hdigest'
  owner := by
    intro row hrow haccepted digest hne hdigest known hknown
    exact h.known hrow haccepted hne hdigest hknown
  registered := by
    intro row hrow haccepted digest hne hdigest
    refine (h.owned row hrow haccepted digest hne hdigest).imp_left ?_
    rintro ⟨known, hknown, -⟩
    exact ⟨known, hknown⟩
  verdicts := by
    intro call hmem call' hmem' verdict verdict' hverdict hverdict' haccepted haccepted' digest hne
      hdigest hdigest'
    rcases h.obtained hmem hverdict haccepted hne hdigest with
      ⟨row, hrow, hfirst, hsame, howner⟩ | ⟨hmay, hsole⟩
    · rcases h.obtained hmem' hverdict' haccepted' hne hdigest' with
        ⟨row', hrow', hfirst', hsame', howner'⟩ | ⟨-, hsole'⟩
      · rw [← howner, ← howner']
        exact h.rows hrow hrow' hfirst hfirst' hne hsame hsame'
      · exact howner.symm.trans (hsole'.rows row hrow hfirst hsame)
    · rcases h.obtained hmem' hverdict' haccepted' hne hdigest' with
        ⟨row', hrow', hfirst', hsame', howner'⟩ | ⟨hmay', -⟩
      · exact ((hsole.rows row' hrow' hfirst' hsame').symm.trans howner')
      · exact h.exclusive call' hmem' call hmem digest hne hmay' hmay

theorem orderly_empty : Orderly ({} : Shared δ) where
  consistent := .empty
  deduped := by
    intro call hcall
    cases hcall
  sound := by
    intro call hcall
    cases hcall
  exclusive := by
    intro call hcall
    cases hcall
  owned := by
    intro row hrow
    cases hrow

/-- **One owner for each agent**, at every point of every interleaving whose lookups are exclusive. -/
theorem one_owner_each {actions : List (CallAction δ)}
    (hexclusive : ∀ t ∈ transitions (Shared.step o py) {} actions, Exclusive t) :
    ∀ t ∈ transitions (Shared.step o py) {} actions, OneOwnerEach t.after := by
  intro t ht
  have hbefore : Orderly t.before := invariant orderly_step orderly_empty hexclusive t ht
  exact (orderly_step t (step_of_mem t ht) hbefore (hexclusive t ht)).oneOwnerEach

/-! ## Two miners, one agent -/

instance (call : Call δ) (digest : String) : Decidable (call.MayRegister digest) := by
  unfold Call.MayRegister Claims
  split <;> infer_instance

/-- `Exclusive`, to be evaluated. -/
def isExclusive (t : Transition (Shared δ) (CallAction δ)) : Bool :=
  match t.action with
  | .lookAgent i =>
    match t.before.calls[i]? with
    | some call =>
      match call.phase with
      | .identified _ (some digest) _ => t.before.calls.all fun other =>
        !decide (other.MayRegister digest) || other.miner == call.miner
      | _ => true
    | none => true
  | _ => true

theorem exclusive_of_isExclusive {t : Transition (Shared δ) (CallAction δ)}
    (h : isExclusive t = true) : Exclusive t := by
  intro i call ref digest check haction hcall hphase _ other hother hmay
  unfold isExclusive at h
  simp only [haction, hcall, hphase] at h
  have hall := List.all_eq_true.mp h other hother
  simpa [hmay] using hall

/-- Two miners' packagings of one agent, the second submitted when the first is through. -/
def inTurn : List (CallAction BoundTags) :=
  [.start (plainFile "5A") false, .identify 0 [], .lookAgent 0, .rule 0 [], .record 0, .register 0,
    .start { plainFile "5B" with content := some (plainTar ++ [0]) } false, .identify 1 [],
    .lookAgent 1, .rule 1 [], .record 1, .register 1]

theorem one_owner_each_in_turn :
    (transitions (Shared.step plainOutside plainInterpreter) {} inTurn).length = inTurn.length ∧
      ∀ t ∈ transitions (Shared.step plainOutside plainInterpreter) {} inTurn,
        OneOwnerEach t.after := by
  refine ⟨by decide +kernel, one_owner_each ?_⟩
  have hall : (transitions (Shared.step plainOutside plainInterpreter) {} inTurn).all
      isExclusive = true := by decide +kernel
  intro t ht
  exact exclusive_of_isExclusive (List.all_eq_true.mp hall t ht)

/-- The same file twice; both calls look the agent up before either has registered it. -/
def overlapping : List (CallAction BoundTags) :=
  [.start (plainFile "5A") false, .start (plainFile "5B") false, .identify 0 [], .identify 1 [],
    .lookAgent 0, .lookAgent 1, .rule 0 [], .rule 1 [], .record 0, .record 1]

/-- Who had which agent accepted. -/
def acceptances (db : Db) : List (String × Option String) :=
  (db.submissions.filter fun row => decide (row.verdict.status = .accepted)).map fun row =>
    (row.verdict.minerId, row.verdict.agentDigest)

theorem mem_acceptances {db : Db} {miner : String} {digest : Option String}
    (h : (miner, digest) ∈ acceptances db) : ∃ row ∈ db.submissions,
      row.verdict.status = .accepted ∧ row.verdict.agentDigest = digest ∧
        row.verdict.minerId = miner := by
  obtain ⟨row, hrow, hsame⟩ := List.mem_map.mp h
  obtain ⟨hmem, haccepted⟩ := List.mem_filter.mp hrow
  obtain ⟨hminer, hdigest⟩ := Prod.mk.inj hsame
  exact ⟨row, hmem, of_decide_eq_true haccepted, hdigest, hminer⟩

/-- Both miners have the agent accepted. -/
theorem overlapping_both_accepted :
    ¬ ∀ (o : Outside BoundTags) (py : Interpreter) (actions : List (CallAction BoundTags)),
      ∀ t ∈ transitions (Shared.step o py) {} actions,
        ∀ row ∈ t.after.db.submissions, row.verdict.status = .accepted → ∀ digest, digest ≠ "" →
          row.verdict.agentDigest = some digest →
          (∃ known, t.after.db.findAgent digest = some known ∧
            known.ownerMinerId = row.verdict.minerId) ∧
          ∀ row' ∈ t.after.db.submissions, row'.verdict.status = .accepted →
            row'.verdict.agentDigest = some digest →
              row.verdict.minerId = row'.verdict.minerId := by
  intro h
  have hboth : (transitions (Shared.step plainOutside plainInterpreter) {} overlapping).any
      (fun t => acceptances t.after.db ==
        [("5A", some "6b86f22ab1510389f4c0de81e9754aea6d0321a2794665ba71c39cc84344b4d7"),
          ("5B", some "6b86f22ab1510389f4c0de81e9754aea6d0321a2794665ba71c39cc84344b4d7")]) =
      true := by decide +kernel
  obtain ⟨t, hmem, ht⟩ := List.any_eq_true.mp hboth
  rw [beq_iff_eq] at ht
  obtain ⟨row, hrow, haccepted, hdigest, hminer⟩ :=
    mem_acceptances (ht ▸ List.mem_cons_self : ("5A", some _) ∈ acceptances t.after.db)
  obtain ⟨row', hrow', haccepted', hdigest', hminer'⟩ :=
    mem_acceptances (ht ▸ List.mem_cons_of_mem _ (List.mem_singleton_self _) :
      ("5B", some _) ∈ acceptances t.after.db)
  have hsame := (h _ _ _ t hmem row hrow haccepted _ (by decide) hdigest).2 row' hrow' haccepted'
    hdigest'
  rw [hminer, hminer'] at hsame
  exact absurd hsame (by decide)

end TaoSubnet
