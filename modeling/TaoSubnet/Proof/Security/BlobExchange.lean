import TaoSubnet.Proof.Security.Addressing
import TaoSubnet.Security.AgentBlob
import TaoSubnet.Security.Evaluate

/-!
# The exchange of an encrypted agent

The miner keeps one file for a key and an archive, under a name that it makes of the id that comes with
the key. The id is the asker's to choose: a validator's file is safe while nobody else uses its id.
-/

namespace TaoSubnet

open Py

/-! ## Digests -/

/-- What `hexdigest` gives: sixty-four digits. -/
structure HexDigests (py : Interpreter) : Prop where
  length : ∀ data, (py.sha256 data).length = 64
  digits : ∀ data, ∀ c ∈ PyStr.ofString (py.sha256 data), (48 ≤ c ∧ c ≤ 57) ∨ (97 ≤ c ∧ c ≤ 102)

variable {py : Interpreter}

theorem HexDigests.length_take (h : HexDigests py) (data : List Nat) {n : Nat} (hn : n ≤ 64) :
    ((PyStr.ofString (py.sha256 data)).take n).length = n := by
  have hlength : (PyStr.ofString (py.sha256 data)).length = 64 := by
    unfold PyStr.ofString
    rw [List.length_map, String.length_toList, h.length]
  rw [List.length_take, hlength]
  omega

theorem HexDigests.ne_empty (h : HexDigests py) (data : List Nat) : py.sha256 data ≠ "" := by
  intro hempty
  have hlength := h.length data
  rw [hempty] at hlength
  cases hlength

/-! ## Names of files -/

/-- The part of a name that the id has no say in. -/
def blobEnding (tarSha : String) : PyStr :=
  45 :: (PyStr.ofString tarSha).take 12 ++ PyStr.ofString ".enc"

theorem blobName_eq (pubkeyId : PyStr) (tarSha : String) :
    blobName pubkeyId tarSha = fileId pubkeyId ++ blobEnding tarSha := by
  unfold blobName blobEnding
  rw [List.append_assoc]

theorem length_fileId (pubkeyId : PyStr) : (fileId pubkeyId).length ≤ 16 := by
  unfold fileId
  exact List.length_take_le _ _

/-- A character of a name that has no meaning to a path or to a URL. -/
def InName (c : Nat) : Prop := c = 45 ∨ c = 46 ∨ (48 ≤ c ∧ c ≤ 57) ∨ (97 ≤ c ∧ c ≤ 122)

theorem blobEnding_text (h : HexDigests py) (data : List Nat) :
    ∀ c ∈ blobEnding (py.sha256 data), InName c := by
  have hending : ∀ c ∈ PyStr.ofString ".enc", InName c := by
    unfold InName
    decide
  have hdash : InName 45 := .inl rfl
  refine List.forall_mem_append.mpr ⟨List.forall_mem_cons.mpr ⟨hdash, fun c hc => ?_⟩, hending⟩
  have hdigit := h.digits data c (List.mem_of_mem_take hc)
  unfold InName
  omega

theorem agentKeyId_text (h : HexDigests py) (pubkey : PyStr) :
    ∀ c ∈ agentKeyId py pubkey, InName c := by
  intro c hc
  have hdigit := h.digits pubkey c (List.mem_of_mem_take hc)
  unfold InName
  omega

theorem fileId_agentKeyId (h : HexDigests py) (pubkey : PyStr) :
    fileId (agentKeyId py pubkey) = agentKeyId py pubkey := by
  have hlength : (agentKeyId py pubkey).length = 16 := h.length_take pubkey (by decide)
  have hne : agentKeyId py pubkey ≠ [] := List.ne_nil_of_length_pos (by omega)
  unfold fileId
  rw [if_neg hne, List.take_of_length_le hlength.le]

/-- The name of a validator's file. -/
def ownName (py : Interpreter) (pubkey : PyStr) (tar : List UInt8) : PyStr :=
  agentKeyId py pubkey ++ blobEnding (sha256Hex py tar)

theorem ownName_text (h : HexDigests py) (pubkey : PyStr) (tar : List UInt8) :
    ∀ c ∈ ownName py pubkey tar, InName c :=
  List.forall_mem_append.mpr ⟨agentKeyId_text h pubkey, blobEnding_text h _⟩

/-- What comes last of a path, when its end has no slash. -/
theorem getLast?_splitOn_append {a : Nat} {t : PyStr} (ht : a ∉ t) (s : PyStr) :
    ∃ rest, rest <:+ s ∧ ((s ++ t).splitOn a).getLast? = some (rest ++ t) := by
  induction hn : s.length using Nat.strong_induction_on generalizing s with
  | _ n ih =>
    by_cases hmem : a ∈ s
    · obtain ⟨front, back, rfl⟩ := List.append_of_mem hmem
      have hshorter : back.length < n := by
        rw [← hn, List.length_append, List.length_cons]
        omega
      obtain ⟨rest, hsuffix, hlast⟩ := ih back.length hshorter back rfl
      refine ⟨rest, hsuffix.trans ((List.suffix_cons a back).trans (List.suffix_append front _)), ?_⟩
      rw [List.append_assoc, List.cons_append, List.splitOn_append_cons_self,
        List.getLast?_append_of_ne_nil _ (List.splitOn_ne_nil a _), hlast]
    · have hnot : a ∉ s ++ t := fun h => (List.mem_append.mp h).elim hmem ht
      refine ⟨s, List.suffix_rfl, ?_⟩
      rw [List.splitOn_eq_singleton hnot, List.getLast?_singleton]

theorem no_slash {s : PyStr} (h : ∀ c ∈ s, InName c) : 47 ∉ s := by
  intro hmem
  have hname := h 47 hmem
  unfold InName at hname
  omega

section Target

variable {disk : Disk} {directory file : Location}

/-- Where a name is written ends in the name. -/
theorem target_last {name : PyStr} (h : disk.target directory name = some file) :
    disk.isDir file = false ∧
      ∃ parent last, file = parent ++ [last] ∧ (name.splitOn 47).getLast? = some last := by
  unfold Disk.target at h
  obtain ⟨parent, -, h⟩ := Option.bind_eq_some_iff.mp h
  obtain ⟨last, hlast, h⟩ := Option.bind_eq_some_iff.mp h
  split at h
  · cases h
  · rename_i hnot
    obtain rfl := Option.some_inj.mp h
    refine ⟨Bool.eq_false_iff.mpr fun hdir => hnot (.inr (.inr hdir)), parent, last, rfl, hlast⟩

/-- A name without a slash is written in the directory. -/
theorem target_plain {name : PyStr} (hname : ∀ c ∈ name, InName c) (hlength : 2 < name.length) :
    disk.target directory name =
      if disk.isDir (directory ++ [name]) then none else some (directory ++ [name]) := by
  have hslash := no_slash hname
  have hhead : name.head? ≠ some 47 := fun h => hslash (List.mem_of_mem_head? h)
  have hspecial : name ∉ [[], currentDir, parentDir] := by
    intro hmem
    have hshort : ∀ part ∈ [[], currentDir, parentDir], part.length ≤ 2 := by decide
    have hle := hshort name hmem
    omega
  have hzero : 0 ∉ name := by
    intro hmem
    have h := hname 0 hmem
    unfold InName at h
    omega
  unfold Disk.target
  rw [List.splitOn_eq_singleton hslash, if_neg hhead]
  show (if name ∈ [[], currentDir, parentDir] ∨ 0 ∈ name ∨ disk.isDir (directory ++ [name]) = true
    then none else some (directory ++ [name])) = _
  simp only [hspecial, hzero, false_or]

theorem length_ownName (h : HexDigests py) (pubkey : PyStr) (tar : List UInt8) :
    2 < (ownName py pubkey tar).length := by
  have hlength : (agentKeyId py pubkey).length = 16 := h.length_take pubkey (by decide)
  unfold ownName
  rw [List.length_append, hlength]
  omega

theorem target_own_file (h : HexDigests py) {pubkey : PyStr} {tar : List UInt8}
    (htarget : disk.target directory (ownName py pubkey tar) = some file) :
    file = directory ++ [ownName py pubkey tar] := by
  rw [target_plain (ownName_text h pubkey tar) (length_ownName h pubkey tar)] at htarget
  split at htarget
  · cases htarget
  · exact (Option.some_inj.mp htarget).symm

/-- A name that is written where a validator's file is has the id of the validator. -/
theorem target_own (h : HexDigests py) {pubkey pubkeyId : PyStr} {tar tar' : List UInt8}
    (htarget : disk.target directory (blobName pubkeyId (sha256Hex py tar')) =
      some (directory ++ [ownName py pubkey tar])) : fileId pubkeyId = agentKeyId py pubkey := by
  obtain ⟨-, parent, last, hfile, hlast⟩ := target_last htarget
  obtain ⟨-, hown⟩ := List.append_inj' hfile rfl
  rw [blobName_eq] at hlast
  obtain ⟨rest, hsuffix, hrest⟩ :=
    getLast?_splitOn_append (no_slash (blobEnding_text h (tar'.map UInt8.toNat))) (fileId pubkeyId)
  have hname : ownName py pubkey tar = rest ++ blobEnding (sha256Hex py tar') := by
    rw [List.singleton_inj.mp hown]
    exact Option.some_inj.mp (hlast.symm.trans hrest)
  have hending : ∀ data, (blobEnding (py.sha256 data)).length = 17 := by
    intro data
    have hdigits := h.length_take data (n := 12) (by decide)
    unfold blobEnding
    rw [List.length_append, List.length_cons, hdigits]
    rfl
  obtain ⟨hid, -⟩ := List.append_inj' hname ((hending _).trans (hending _).symm)
  have hlength : (agentKeyId py pubkey).length = 16 := h.length_take pubkey (by decide)
  have hsame : rest = fileId pubkeyId := by
    refine hsuffix.eq_of_length_le ?_
    rw [← hid, hlength]
    exact length_fileId pubkeyId
  rw [← hsame, hid]

end Target

/-! ## What the server serves -/

theorem inName_visible {c : Nat} (h : InName c) : 32 < c ∧ c < 127 ∧ c ≠ 35 := by
  unfold InName at h
  omega

theorem rstrip_visible {s : PyStr} (h : ∀ c ∈ s, 32 < c ∧ c < 127 ∧ c ≠ 35) : Url.rstrip s = s := by
  refine List.rdropWhile_eq_self_iff.mpr fun hl => ?_
  have hlast := h _ (List.getLast_mem hl)
  rw [Url.not_space_of_visible ⟨hlast.1, hlast.2.1⟩]
  exact Bool.false_ne_true

theorem slash_visible {name : PyStr} (hname : ∀ c ∈ name, InName c) :
    ∀ c ∈ 47 :: name, 32 < c ∧ c < 127 ∧ c ≠ 35 :=
  List.forall_mem_cons.mpr ⟨by decide, fun c hc => inName_visible (hname c hc)⟩

theorem not_special {name : PyStr} (hlength : 2 < name.length) :
    name ≠ [] ∧ name ≠ currentDir ∧ name ≠ parentDir := by
  refine ⟨?_, ?_, ?_⟩
  all_goals
    rintro rfl
    exact absurd hlength (by decide)

/-- The path of a plain name is the file of that name. -/
theorem serve_plain (server : BlobServer) (disk : Disk) {name : PyStr} (hlength : 2 < name.length)
    (hname : ∀ c ∈ name, InName c) :
    server.serve disk (47 :: name) = disk.files (server.directory ++ [name]) := by
  obtain ⟨hne, hcurrent, hparent⟩ := not_special hlength
  have hvisible := slash_visible hname
  have hmark : ∀ c ∈ 47 :: name, c ≠ 63 ∧ c ≠ 37 := by
    refine List.forall_mem_cons.mpr ⟨by decide, fun c hc => ?_⟩
    have hc := hname c hc
    unfold InName at hc
    omega
  have hpath : ((47 :: name).takeWhile (· != 63)).takeWhile (· != 35) = 47 :: name := by
    have hquery : (47 :: name).takeWhile (· != 63) = 47 :: name :=
      List.takeWhile_eq_self_iff.mpr fun c hc => bne_iff_ne.mpr (hmark c hc).1
    rw [hquery]
    exact List.takeWhile_eq_self_iff.mpr fun c hc => bne_iff_ne.mpr (hvisible c hc).2.2
  have hend : (47 :: name).getLast? ≠ some 47 := by
    rw [List.getLast?_cons_of_ne_nil hne]
    exact fun h => no_slash hname (List.mem_of_getLast? h)
  have hunquote : Url.unquote (47 :: name) = 47 :: name := by
    have hascii : ∀ c ∈ 47 :: name, c < 128 := fun c hc => (hvisible c hc).2.1.trans (by decide)
    have hescape : 37 ∉ 47 :: name := fun hmem => (hmark 37 hmem).2 rfl
    rw [Url.unquote_ascii hascii, Url.unquoteBytes_of_not_mem hescape, Url.utf8Replace_ascii hascii]
  have hparts : (47 :: name).splitOn 47 = [[], name] := by
    have hsplit := List.splitOn_append_cons_self (a := 47) [] name
    rw [List.nil_append, List.splitOn_eq_singleton (no_slash hname)] at hsplit
    exact hsplit
  unfold BlobServer.serve
  dsimp only
  rw [hpath, rstrip_visible hvisible, if_neg hend, hunquote, hparts]
  unfold BlobServer.normParts
  simp [hne, hcurrent, hparent]

/-- The host and the port of the server make a URL's authority. -/
def HasAddress (server : BlobServer) : Prop :=
  TargetUrl server.advertisedHost (PyStr.ofString (toString server.port))

/-- **The URL of a plain name leads to its file.** -/
theorem fetch_urlFor {server : BlobServer} (haddress : HasAddress server) (disk : Disk) {name : PyStr}
    (hlength : 2 < name.length) (hname : ∀ c ∈ name, InName c) :
    server.fetch disk (server.urlFor name) = disk.files (server.directory ++ [name]) := by
  have hurl : server.urlFor name =
      Url.httpScheme ++ authority server.advertisedHost (PyStr.ofString (toString server.port)) ++
        47 :: name := rfl
  have hlast : EndsAuthority (47 :: name) := by
    unfold EndsAuthority
    rw [rstrip_visible (slash_visible hname)]
    intro c hc
    obtain rfl := Option.some_inj.mp hc
    rfl
  have hauthority : Url.authorityOf (server.urlFor name) = some server.address :=
    (authorityOf_target haddress (47 :: name)).mpr hlast
  have hselector : Url.selectorOf (server.urlFor name) = some (47 :: name) := by
    rw [hurl]
    exact Url.selectorOf_target haddress.authority_ne haddress.authority_text
      fun c hc => inName_visible (hname c hc)
  unfold BlobServer.fetch
  rw [if_pos hauthority, hselector]
  exact serve_plain server disk hlength hname

/-! ## The download -/

/-- A blob that is read to its end, in whatever chunks. -/
theorem readBlob_all {chunks : List (List UInt8)} (hchunks : ∀ chunk ∈ chunks, chunk ≠ [])
    {total : Nat} (hsize : total + chunks.flatten.length ≤ SECURITY_BLOB_MAX_BYTES) :
    readBlob total chunks = .ok chunks.flatten := by
  induction chunks generalizing total with
  | nil => rfl
  | cons chunk rest ih =>
    obtain ⟨hchunk, hrest⟩ := List.forall_mem_cons.mp hchunks
    rw [List.flatten_cons, List.length_append] at hsize
    have hnot : ¬ chunk.isEmpty = true := by simpa using hchunk
    rw [readBlob, if_neg hnot, if_neg (by omega), ih hrest (by omega)]
    rfl

theorem readBlob_ok {chunks : List (List UInt8)} (hchunks : ∀ chunk ∈ chunks, chunk ≠ [])
    {total : Nat} {content : List UInt8} (h : readBlob total chunks = .ok content) :
    content = chunks.flatten := by
  induction chunks generalizing total content with
  | nil => exact (Except.ok.inj h).symm
  | cons chunk rest ih =>
    obtain ⟨hchunk, hrest⟩ := List.forall_mem_cons.mp hchunks
    have hnot : ¬ chunk.isEmpty = true := by simpa using hchunk
    rw [readBlob, if_neg hnot] at h
    split at h
    · cases h
    · cases hread : readBlob (total + chunk.length) rest with
      | error e =>
        rw [hread] at h
        cases h
      | ok others =>
        rw [hread] at h
        rw [← Except.ok.inj h, ih hrest hread]
        rfl

/-! ## One ask -/

namespace AgentMiner

variable {crypto : AgentCrypto} {s s' : AgentMiner} {ask : AgentAsk} {server : BlobServer}

/-- The miner that has the archive of the image: the one it had, or a new one without blobs. -/
structure Holding (s : AgentMiner) (ask : AgentAsk) (tar : List UInt8) (s' : AgentMiner) : Prop where
  archive : s'.agentTar = some tar
  image : s'.agentTarImage = some ask.imageRef
  disk : s'.disk = s.disk
  server : s'.blobServer = s.blobServer
  fresh : s' = s ∨ (saveImageTar ask.saved = .ok tar ∧ s'.agentBlobs = Dict.empty)
  kept : ∀ kept, s.keptTar ask.imageRef = some kept → s' = s

theorem agentTarFor_ok {tar : List UInt8} (h : agentTarFor ask ask.imageRef s = (.ok tar, s')) :
    Holding s ask tar s' := by
  unfold agentTarFor at h
  rw [Prog.bind_ok (Prog.get_run s)] at h
  cases hkept : s.keptTar ask.imageRef with
  | some kept =>
    rw [hkept] at h
    obtain ⟨hok, rfl⟩ := Prod.ext_iff.mp h
    obtain rfl := Except.ok.inj hok
    unfold keptTar at hkept
    split at hkept
    · exact ⟨hkept, ‹_›, rfl, rfl, .inl rfl, fun _ _ => rfl⟩
    · cases hkept
  | none =>
    rw [hkept] at h
    obtain ⟨saved, s₁, hsaved, h⟩ := Prog.bind_eq_ok h
    obtain ⟨hsave, rfl⟩ := Prod.ext_iff.mp hsaved
    obtain ⟨hok, rfl⟩ := Prod.ext_iff.mp h
    obtain rfl := Except.ok.inj hok
    refine ⟨rfl, rfl, rfl, rfl, .inr ⟨hsave, rfl⟩, fun _ hsome => ?_⟩
    rw [hkept] at hsome
    cases hsome

theorem agentTarFor_error {imageRef : PyStr} {fault : AgentFault}
    (h : agentTarFor ask imageRef s = (.error fault, s')) : s' = s ∧ s.keptTar imageRef = none := by
  unfold agentTarFor at h
  rw [Prog.bind_ok (Prog.get_run s)] at h
  cases hkept : s.keptTar imageRef with
  | some kept =>
    rw [hkept] at h
    cases h
  | none =>
    rw [hkept] at h
    dsimp only at h
    rw [Prog.bind_run] at h
    cases hsaved : saveImageTar ask.saved with
    | ok tar =>
      rw [hsaved] at h
      cases h
    | error e =>
      rw [hsaved] at h
      cases h
      exact ⟨rfl, rfl⟩

/-- What may come of the blob of an archive that is at hand. -/
inductive Prepares (crypto : AgentCrypto) (py : Interpreter) (ask : AgentAsk) (server : BlobServer)
    (tar : List UInt8) (s : AgentMiner) : Except AgentFault (PyStr × String) → AgentMiner → Prop
  | cached {known : PyStr × String}
    (hknown : s.agentBlobs.get? (ask.pubkey, sha256Hex py tar) = some known) :
    Prepares crypto py ask server tar s (.ok known) s
  | declined (fault : AgentFault)
    (hnone : s.agentBlobs.get? (ask.pubkey, sha256Hex py tar) = none)
    (hwhy : crypto.encryptAgent tar ask.pubkey ask.seed = none ∨
      s.disk.target server.directory (blobName ask.synapse.pubkeyId (sha256Hex py tar)) = none) :
    Prepares crypto py ask server tar s (.error fault) s
  | cutOff {blob : List UInt8} {file : Location} (n : Nat) (fault : AgentFault)
    (hnone : s.agentBlobs.get? (ask.pubkey, sha256Hex py tar) = none)
    (hblob : crypto.encryptAgent tar ask.pubkey ask.seed = some blob)
    (htarget : s.disk.target server.directory (blobName ask.synapse.pubkeyId (sha256Hex py tar)) =
      some file) :
    Prepares crypto py ask server tar s (.error fault)
      { s with disk := s.disk.write file (blob.take n) }
  | published {blob : List UInt8} {file : Location}
    (hnone : s.agentBlobs.get? (ask.pubkey, sha256Hex py tar) = none)
    (hblob : crypto.encryptAgent tar ask.pubkey ask.seed = some blob)
    (htarget : s.disk.target server.directory (blobName ask.synapse.pubkeyId (sha256Hex py tar)) =
      some file) :
    Prepares crypto py ask server tar s
      (.ok (server.urlFor (blobName ask.synapse.pubkeyId (sha256Hex py tar)), sha256Hex py blob))
      { s with
        disk := s.disk.write file blob
        agentBlobs := s.agentBlobs.insert (ask.pubkey, sha256Hex py tar)
          (server.urlFor (blobName ask.synapse.pubkeyId (sha256Hex py tar)), sha256Hex py blob) }

theorem publish_cases {blob : List UInt8} {name : PyStr} {r : Except AgentFault PyStr}
    (h : publish server ask.room blob name s = (r, s')) :
    (s.disk.target server.directory name = none ∧ ∃ fault, r = .error fault ∧ s' = s) ∨
      ∃ file, s.disk.target server.directory name = some file ∧
        ((∃ n fault, r = .error fault ∧
            s' = { s with disk := s.disk.write file (blob.take n) }) ∨
          (r = .ok (server.urlFor name) ∧ s' = { s with disk := s.disk.write file blob })) := by
  unfold publish at h
  split at h
  · rename_i htarget
    obtain ⟨hr, rfl⟩ := Prod.ext_iff.mp h
    exact .inl ⟨htarget, _, hr.symm, rfl⟩
  · rename_i file htarget
    refine .inr ⟨file, htarget, ?_⟩
    split at h
    · obtain ⟨hr, rfl⟩ := Prod.ext_iff.mp h
      exact .inl ⟨_, _, hr.symm, rfl⟩
    · obtain ⟨hr, rfl⟩ := Prod.ext_iff.mp h
      exact .inr ⟨hr.symm, rfl⟩

theorem agentBlobFor_cases {r : Except AgentFault (PyStr × String)}
    (h : agentBlobFor crypto py ask server ask.imageRef ask.pubkey ask.synapse.pubkeyId s = (r, s')) :
    ((∃ fault, r = .error fault) ∧ s' = s ∧ s.keptTar ask.imageRef = none) ∨
      ∃ tar s₁, Holding s ask tar s₁ ∧ Prepares crypto py ask server tar s₁ r s' := by
  unfold agentBlobFor at h
  rw [Prog.bind_run] at h
  split at h
  · rename_i tar s₁ htar
    refine .inr ⟨tar, s₁, agentTarFor_ok htar, ?_⟩
    dsimp only at h
    rw [Prog.bind_ok (Prog.get_run s₁)] at h
    cases hknown : s₁.agentBlobs.get? (ask.pubkey, sha256Hex py tar) with
    | some known =>
      rw [hknown] at h
      obtain ⟨rfl, rfl⟩ := Prod.ext_iff.mp h
      exact .cached hknown
    | none =>
      rw [hknown] at h
      dsimp only at h
      cases hblob : crypto.encryptAgent tar ask.pubkey ask.seed with
      | none =>
        rw [hblob] at h
        obtain ⟨rfl, rfl⟩ := Prod.ext_iff.mp h
        exact .declined _ hknown (.inl hblob)
      | some blob =>
        have hsealed : (Prog.ofExcept ((some blob).elim (.error AgentFault.agent) .ok) :
            Prog AgentMiner AgentFault (List UInt8)) s₁ = (.ok blob, s₁) := rfl
        rw [hblob, Prog.bind_ok hsealed, Prog.bind_run] at h
        split at h
        · rename_i url s₂ hpublish
          rcases publish_cases hpublish with ⟨-, fault, hr, -⟩ | ⟨file, htarget, hwritten⟩
          · cases hr
          · rcases hwritten with ⟨n, fault, hr, -⟩ | ⟨hr, rfl⟩
            · cases hr
            · obtain rfl := Except.ok.inj hr
              obtain ⟨rfl, rfl⟩ := Prod.ext_iff.mp h
              exact .published hknown hblob htarget
        · rename_i fault s₂ hpublish
          obtain ⟨rfl, rfl⟩ := Prod.ext_iff.mp h
          rcases publish_cases hpublish with ⟨hnone, fault', -, rfl⟩ | ⟨file, htarget, hwritten⟩
          · exact .declined _ hknown (.inr hnone)
          · rcases hwritten with ⟨n, fault', -, rfl⟩ | ⟨hr, -⟩
            · exact .cutOff n _ hknown hblob htarget
            · cases hr
  · rename_i fault s₁ htar
    obtain ⟨rfl, rfl⟩ := Prod.ext_iff.mp h
    exact .inl ⟨⟨fault, rfl⟩, agentTarFor_error htar⟩

theorem forward_other (h : ask.offers py = false ∨ ask.pubkey = []) :
    (forward crypto py ask s).2 = s := by
  unfold forward answer
  by_cases hoffers : ask.offers py = true
  · have hkey : ask.pubkey = [] := h.resolve_left (by simp [hoffers])
    rw [hoffers, hkey]
    rfl
  · rw [Bool.eq_false_iff.mpr hoffers]
    rfl

/-- An ask with a key, of a miner that offers an agent. -/
theorem forward_blob (crypto : AgentCrypto) (hserver : s.blobServer = some server)
    (hoffers : ask.offers py = true)
    (hkey : ask.pubkey ≠ []) :
    ∃ r, agentBlobFor crypto py ask server ask.imageRef ask.pubkey ask.synapse.pubkeyId s =
        (r, (forward crypto py ask s).2) ∧
      (∀ url sha, r = .ok (url, sha) → (forward crypto py ask s).1 = blobAnswer ask url sha) ∧
      (∀ fault, r = .error fault → (forward crypto py ask s).1.hasAgent = some false) := by
  have hanswer : answer crypto py ask s =
      (agentBlobFor crypto py ask server ask.imageRef ask.pubkey ask.synapse.pubkeyId >>=
        fun known => pure (blobAnswer ask known.1 known.2)) s := by
    unfold answer
    rw [hoffers, Bool.not_true, if_neg Bool.false_ne_true, Prog.bind_ok (Prog.get_run s),
      if_neg hkey, hserver]
  rcases hrun : agentBlobFor crypto py ask server ask.imageRef ask.pubkey ask.synapse.pubkeyId s with
    ⟨fault | ⟨url, sha⟩, s'⟩
  · rw [Prog.bind_error hrun] at hanswer
    refine ⟨.error fault, ?_, ?_, ?_⟩
    · unfold forward
      rw [hanswer]
      cases fault <;> rfl
    · intro _ _ h
      cases h
    · intro _ _
      unfold forward
      rw [hanswer]
      cases fault <;> rfl
  · rw [Prog.bind_ok hrun] at hanswer
    refine ⟨.ok (url, sha), ?_, ?_, ?_⟩
    · unfold forward
      rw [hanswer]
      rfl
    · intro _ _ h
      obtain ⟨rfl, rfl⟩ := Prod.ext_iff.mp (Except.ok.inj h)
      unfold forward
      rw [hanswer]
      rfl
    · intro _ h
      cases h

/-- What an ask does to the miner: nothing, when no agent is given to a key. -/
theorem forward_state (crypto : AgentCrypto) (hserver : s.blobServer = some server) (ask : AgentAsk) :
    (forward crypto py ask s).2 = s ∨
      (ask.offers py = true ∧ ask.pubkey ≠ []) ∧ ∃ tar s₁ r, Holding s ask tar s₁ ∧
        Prepares crypto py ask server tar s₁ r (forward crypto py ask s).2 := by
  by_cases hother : ask.offers py = false ∨ ask.pubkey = []
  · exact .inl (forward_other hother)
  · obtain ⟨hoffers, hkey⟩ := not_or.mp hother
    have hoffers := Bool.eq_true_of_not_eq_false hoffers
    obtain ⟨r, hrun, -⟩ := forward_blob crypto hserver hoffers hkey
    rcases agentBlobFor_cases hrun with ⟨-, hsame, -⟩ | hprepares
    · exact .inl hsame
    · obtain ⟨tar, s₁, hholding, hprepares⟩ := hprepares
      exact .inr ⟨⟨hoffers, hkey⟩, tar, s₁, r, hholding, hprepares⟩

end AgentMiner

/-! ## A validator's file -/

/-- The id of the key comes with the key, and with no other. -/
def AgentAsk.Owns (py : Interpreter) (pubkey : PyStr) (ask : AgentAsk) : Prop :=
  ask.pubkey = pubkey ↔ fileId ask.synapse.pubkeyId = agentKeyId py pubkey

instance (py : Interpreter) (pubkey : PyStr) (ask : AgentAsk) : Decidable (ask.Owns py pubkey) :=
  inferInstanceAs (Decidable (_ ↔ _))

/-- The box opens what was sealed for its key. -/
def Opens (crypto : AgentCrypto) (privateKey : PyStr) : Prop :=
  ∀ tar seed blob, crypto.encryptAgent tar (crypto.publicKeyB64 privateKey) seed = some blob →
    crypto.decryptAgent blob privateKey = some tar

def ownFile (py : Interpreter) (server : BlobServer) (pubkey : PyStr) (tar : List UInt8) : Location :=
  server.directory ++ [ownName py pubkey tar]

namespace AgentMiner

/-- What the miner keeps for a validator is on the disk: the archive, in a box that the validator opens. -/
structure Filed (crypto : AgentCrypto) (py : Interpreter) (server : BlobServer) (privateKey : PyStr)
    (s : AgentMiner) : Prop where
  served : s.blobServer = some server
  filed : ∀ tarSha url cipherSha,
    s.agentBlobs.get? (crypto.publicKeyB64 privateKey, tarSha) = some (url, cipherSha) →
    ∃ tar blob, s.agentTar = some tar ∧ tarSha = sha256Hex py tar ∧
      url = server.urlFor (ownName py (crypto.publicKeyB64 privateKey) tar) ∧
      s.disk.isDir (ownFile py server (crypto.publicKeyB64 privateKey) tar) = false ∧
      s.disk.files (ownFile py server (crypto.publicKeyB64 privateKey) tar) = some blob ∧
      cipherSha = sha256Hex py blob ∧ crypto.decryptAgent blob privateKey = some tar

variable {crypto : AgentCrypto} {s s' : AgentMiner} {ask : AgentAsk} {server : BlobServer}
  {privateKey : PyStr}

theorem Filed.holding {tar : List UInt8} (h : Filed crypto py server privateKey s)
    (hholding : Holding s ask tar s') : Filed crypto py server privateKey s' := by
  rcases hholding.fresh with rfl | ⟨-, hempty⟩
  · exact h
  · refine ⟨hholding.server.trans h.served, fun tarSha url cipherSha hget => ?_⟩
    rw [hempty] at hget
    cases hget

/-- A file is written that is not the validator's, when it has one. -/
theorem Filed.write {tar : List UInt8} (htar : s.agentTar = some tar) {file : Location}
    (data : List UInt8) (h : Filed crypto py server privateKey s)
    (hfile : ∀ known, s.agentBlobs.get? (crypto.publicKeyB64 privateKey, sha256Hex py tar) = some known →
      ownFile py server (crypto.publicKeyB64 privateKey) tar ≠ file) :
    Filed crypto py server privateKey { s with disk := s.disk.write file data } := by
  refine ⟨h.served, fun tarSha url cipherSha hget => ?_⟩
  obtain ⟨held, blob, hheld, rfl, hurl, hdir, hblob, hcipher, hopened⟩ :=
    h.filed tarSha url cipherSha hget
  obtain rfl := Option.some_inj.mp (hheld.symm.trans htar)
  refine ⟨held, blob, hheld, rfl, hurl, hdir, ?_, hcipher, hopened⟩
  show (if _ = file then _ else _) = _
  rw [if_neg (hfile _ hget)]
  exact hblob

theorem get?_insert_key {pubkey key : PyStr} {sha tarSha : String} {known : PyStr × String}
    (hkey : key ≠ pubkey) :
    (s.agentBlobs.insert (key, sha) known).get? (pubkey, tarSha) =
      s.agentBlobs.get? (pubkey, tarSha) := by
  rw [Dict.get?_insert, if_neg fun h => hkey (Prod.ext_iff.mp h).1.symm]

theorem Filed.prepares (hsha : HexDigests py) (hopens : Opens crypto privateKey)
    (howns : ask.Owns py (crypto.publicKeyB64 privateKey)) {tar : List UInt8}
    {r : Except AgentFault (PyStr × String)} (htar : s.agentTar = some tar)
    (h : Filed crypto py server privateKey s) (hstep : Prepares crypto py ask server tar s r s') :
    Filed crypto py server privateKey s' := by
  -- the only asks that come to the validator's file are its own, and it is written for the first alone
  have hwrite : ∀ {file : Location},
      s.agentBlobs.get? (ask.pubkey, sha256Hex py tar) = none →
      s.disk.target server.directory (blobName ask.synapse.pubkeyId (sha256Hex py tar)) = some file →
      ∀ known, s.agentBlobs.get? (crypto.publicKeyB64 privateKey, sha256Hex py tar) = some known →
        ownFile py server (crypto.publicKeyB64 privateKey) tar ≠ file := by
    rintro file hnone htarget known hknown rfl
    have hkey : ask.pubkey = crypto.publicKeyB64 privateKey := howns.mpr (target_own hsha htarget)
    rw [hkey, hknown] at hnone
    cases hnone
  cases hstep with
  | cached hknown => exact h
  | declined fault hnone hwhy => exact h
  | cutOff n fault hnone hblob htarget => exact h.write htar _ (hwrite hnone htarget)
  | @published blob file hnone hblob htarget =>
    have hwritten := h.write htar blob (hwrite hnone htarget)
    refine ⟨h.served, fun tarSha url cipherSha hget => ?_⟩
    by_cases hkey : ask.pubkey = crypto.publicKeyB64 privateKey
    · have hid : fileId ask.synapse.pubkeyId = agentKeyId py (crypto.publicKeyB64 privateKey) :=
        howns.mp hkey
      have hname : blobName ask.synapse.pubkeyId (sha256Hex py tar) =
          ownName py (crypto.publicKeyB64 privateKey) tar := by
        rw [blobName_eq, hid]
        rfl
      obtain ⟨hdir, -⟩ := target_last htarget
      have hfile : file = ownFile py server (crypto.publicKeyB64 privateKey) tar := by
        rw [hname] at htarget
        exact target_own_file hsha htarget
      rw [hkey, Dict.get?_insert] at hget
      split at hget
      · rename_i hsame
        obtain rfl := (Prod.ext_iff.mp hsame).2
        obtain ⟨rfl, rfl⟩ := Prod.ext_iff.mp (Option.some_inj.mp hget)
        rw [hkey] at hblob
        refine ⟨tar, blob, htar, rfl, congrArg server.urlFor hname, hfile ▸ hdir, ?_, rfl,
          hopens _ _ _ hblob⟩
        exact if_pos hfile.symm
      · rename_i hother
        obtain ⟨held, -, hheld, hdigest, -⟩ := h.filed tarSha url cipherSha hget
        obtain rfl := Option.some_inj.mp (hheld.symm.trans htar)
        exact (hother (Prod.ext rfl hdigest)).elim
    · obtain ⟨held, found, hheld, hdigest, hurl, hdir, hfound, hcipher, hopened⟩ :=
        hwritten.filed tarSha url cipherSha ((get?_insert_key hkey).symm.trans hget)
      exact ⟨held, found, hheld, hdigest, hurl, hdir, hfound, hcipher, hopened⟩

theorem Filed.forward (hsha : HexDigests py) (hopens : Opens crypto privateKey)
    (howns : ask.Owns py (crypto.publicKeyB64 privateKey)) (h : Filed crypto py server privateKey s) :
    Filed crypto py server privateKey (forward crypto py ask s).2 := by
  rcases forward_state crypto h.served ask with hsame | hprepared
  · rw [hsame]
    exact h
  · obtain ⟨-, tar, s₁, r, hholding, hprepares⟩ := hprepared
    exact (h.holding hholding).prepares hsha hopens howns hholding.archive hprepares

theorem Filed.run (hsha : HexDigests py) (hopens : Opens crypto privateKey) {asks : List AgentAsk}
    (howns : ∀ ask ∈ asks, ask.Owns py (crypto.publicKeyB64 privateKey))
    (h : Filed crypto py server privateKey s) :
    Filed crypto py server privateKey (run crypto py asks s) := by
  induction asks generalizing s with
  | nil => exact h
  | cons ask rest ih =>
    obtain ⟨hask, hrest⟩ := List.forall_mem_cons.mp howns
    exact ih hrest (h.forward hsha hopens hask)

/-! ## While the image stays -/

/-- The miner has the archive of the image, and has answered the key with what is known. -/
structure Answered (py : Interpreter) (server : BlobServer) (imageRef : PyStr) (tar : List UInt8)
    (pubkey : PyStr) (known : PyStr × String) (s : AgentMiner) : Prop where
  served : s.blobServer = some server
  archive : s.agentTar = some tar
  image : s.agentTarImage = some imageRef
  entry : s.agentBlobs.get? (pubkey, sha256Hex py tar) = some known

variable {imageRef : PyStr} {tar : List UInt8} {pubkey : PyStr} {known : PyStr × String}

theorem Answered.kept (himage : ask.imageRef = imageRef)
    (h : Answered py server imageRef tar pubkey known s) : s.keptTar ask.imageRef = some tar := by
  unfold keptTar
  rw [himage, if_pos h.image, h.archive]

theorem Answered.holding {tar' : List UInt8} (himage : ask.imageRef = imageRef)
    (h : Answered py server imageRef tar pubkey known s) (hholding : Holding s ask tar' s') :
    tar' = tar ∧ s' = s := by
  obtain rfl := hholding.kept tar (h.kept himage)
  exact ⟨Option.some_inj.mp (hholding.archive.symm.trans h.archive), rfl⟩

theorem Answered.forward (himage : ask.imageRef = imageRef)
    (h : Answered py server imageRef tar pubkey known s) :
    Answered py server imageRef tar pubkey known (forward crypto py ask s).2 := by
  rcases forward_state crypto h.served ask with hsame | hprepared
  · rw [hsame]
    exact h
  · obtain ⟨-, tar', s₁, r, hholding, hprepares⟩ := hprepared
    obtain ⟨rfl, rfl⟩ := h.holding himage hholding
    generalize hnext : (AgentMiner.forward crypto py ask s₁).2 = s' at hprepares
    cases hprepares with
    | cached hknown => exact h
    | declined fault hnone hwhy => exact h
    | cutOff n fault hnone hblob htarget => exact ⟨h.served, h.archive, h.image, h.entry⟩
    | published hnone hblob htarget =>
      have hkey : ask.pubkey ≠ pubkey := by
        rintro rfl
        rw [h.entry] at hnone
        cases hnone
      exact ⟨h.served, h.archive, h.image, (get?_insert_key hkey).trans h.entry⟩

theorem Answered.run (crypto : AgentCrypto) {asks : List AgentAsk}
    (himage : ∀ ask ∈ asks, ask.imageRef = imageRef)
    (h : Answered py server imageRef tar pubkey known s) :
    Answered py server imageRef tar pubkey known (run crypto py asks s) := by
  induction asks generalizing s with
  | nil => exact h
  | cons ask rest ih =>
    obtain ⟨hask, hrest⟩ := List.forall_mem_cons.mp himage
    exact ih hrest (h.forward hask)

/-- An agent that is given to a key is given as a blob, and the miner knows which. -/
theorem answered_of_given (hserver : s.blobServer = some server) (hkey : ask.pubkey ≠ [])
    (hgiven : (AgentMiner.forward crypto py ask s).1.hasAgent = some true) :
    ∃ tar known,
      Answered py server ask.imageRef tar ask.pubkey known (AgentMiner.forward crypto py ask s).2 ∧
        (AgentMiner.forward crypto py ask s).1 = blobAnswer ask known.1 known.2 := by
  have hoffers : ask.offers py = true := by
    by_contra hnot
    have hdeclined : (AgentMiner.forward crypto py ask s).1.hasAgent = some false := by
      unfold AgentMiner.forward answer
      rw [Bool.eq_false_iff.mpr hnot]
      rfl
    rw [hdeclined] at hgiven
    cases hgiven
  obtain ⟨r, hrun, hok, herror⟩ := forward_blob crypto hserver hoffers hkey
  cases r with
  | error fault =>
    rw [herror fault rfl] at hgiven
    cases hgiven
  | ok known =>
    rcases agentBlobFor_cases hrun with ⟨⟨fault, hfault⟩, -⟩ | ⟨tar, s₁, hholding, hprepares⟩
    · cases hfault
    · refine ⟨tar, known, ?_, hok known.1 known.2 rfl⟩
      generalize hnext : (AgentMiner.forward crypto py ask s).2 = s' at hprepares
      cases hprepares with
      | cached hknown =>
        exact ⟨hholding.server.trans hserver, hholding.archive, hholding.image, hknown⟩
      | published hnone hblob htarget =>
        refine ⟨hholding.server.trans hserver, hholding.archive, hholding.image, ?_⟩
        exact (Dict.get?_insert _ _ _ _).trans (if_pos rfl)

/-! ## What is ever on the disk -/

/-- The beginning of an archive of the image, sealed for the key that was asked with. -/
def SealedFor (crypto : AgentCrypto) (py : Interpreter) (asks : List AgentAsk) (content : List UInt8) :
    Prop :=
  ∃ ask ∈ asks, (ask.offers py = true ∧ ask.pubkey ≠ []) ∧
    ∃ saver ∈ asks, saver.imageRef = ask.imageRef ∧ ∃ tar blob n, saveImageTar saver.saved = .ok tar ∧
      crypto.encryptAgent tar ask.pubkey ask.seed = some blob ∧ content = blob.take n

/-- The last name of the location is one that the miner makes. -/
def EndsInBlob (py : Interpreter) (file : Location) : Prop :=
  ∃ parent front data, file = parent ++ [front ++ blobEnding (py.sha256 data)]

/-- Where the archive and the files of the miner come from. -/
structure Provenance (crypto : AgentCrypto) (py : Interpreter) (server : BlobServer) (disk : Disk)
    (asks : List AgentAsk) (s : AgentMiner) : Prop where
  served : s.blobServer = some server
  archive : ∀ tar imageRef, s.agentTar = some tar → s.agentTarImage = some imageRef →
    ∃ saver ∈ asks, saver.imageRef = imageRef ∧ saveImageTar saver.saved = .ok tar
  files : ∀ file content, s.disk.files file = some content →
    disk.files file = some content ∨ (SealedFor crypto py asks content ∧ EndsInBlob py file)
  asked : ∀ pubkey tarSha known, s.agentBlobs.get? (pubkey, tarSha) = some known →
    ∃ ask ∈ asks, ask.pubkey = pubkey

variable {disk : Disk} {asks : List AgentAsk}

theorem SealedFor.mono {asks' : List AgentAsk} (hsub : asks ⊆ asks') {content : List UInt8}
    (h : SealedFor crypto py asks content) : SealedFor crypto py asks' content := by
  obtain ⟨a, ha, hgiven, saver, hsaver, hsealed⟩ := h
  exact ⟨a, hsub ha, hgiven, saver, hsub hsaver, hsealed⟩

theorem Provenance.mono {asks' : List AgentAsk} (hsub : asks ⊆ asks')
    (h : Provenance crypto py server disk asks s) : Provenance crypto py server disk asks' s := by
  refine ⟨h.served, fun tar imageRef htar himage => ?_, fun file content hfile => ?_,
    fun pubkey tarSha known hget => ?_⟩
  · obtain ⟨saver, hsaver, hsaved⟩ := h.archive tar imageRef htar himage
    exact ⟨saver, hsub hsaver, hsaved⟩
  · exact (h.files file content hfile).imp_right fun hnew => ⟨hnew.1.mono hsub, hnew.2⟩
  · obtain ⟨a, ha, hpubkey⟩ := h.asked pubkey tarSha known hget
    exact ⟨a, hsub ha, hpubkey⟩

theorem Provenance.holding (hmem : ask ∈ asks) (h : Provenance crypto py server disk asks s)
    (hholding : Holding s ask tar s') : Provenance crypto py server disk asks s' := by
  refine ⟨hholding.server.trans h.served, fun held imageRef hheld himage => ?_, ?_,
    fun pubkey tarSha known hget => ?_⟩
  · rcases hholding.fresh with rfl | ⟨hsaved, -⟩
    · exact h.archive held imageRef hheld himage
    · obtain rfl := Option.some_inj.mp (hholding.archive.symm.trans hheld)
      exact ⟨ask, hmem, Option.some_inj.mp (hholding.image.symm.trans himage), hsaved⟩
  · rw [hholding.disk]
    exact h.files
  · rcases hholding.fresh with rfl | ⟨-, hempty⟩
    · exact h.asked pubkey tarSha known hget
    · rw [hempty] at hget
      cases hget

theorem endsInBlob_target (hsha : HexDigests py) {directory file : Location} {pubkeyId : PyStr}
    (htarget : disk.target directory (blobName pubkeyId (sha256Hex py tar)) = some file) :
    EndsInBlob py file := by
  obtain ⟨-, parent, last, rfl, hlast⟩ := target_last htarget
  rw [blobName_eq] at hlast
  obtain ⟨front, -, hfront⟩ :=
    getLast?_splitOn_append (no_slash (blobEnding_text hsha (tar.map UInt8.toNat))) (fileId pubkeyId)
  obtain rfl := Option.some_inj.mp (hlast.symm.trans hfront)
  exact ⟨parent, front, _, rfl⟩

theorem Provenance.write {file : Location} {content : List UInt8}
    (hsealed : SealedFor crypto py asks content) (hfile : EndsInBlob py file)
    (h : Provenance crypto py server disk asks s) :
    Provenance crypto py server disk asks { s with disk := s.disk.write file content } := by
  refine ⟨h.served, h.archive, fun other found hfound => ?_, h.asked⟩
  by_cases hother : other = file
  · have hwritten : (s.disk.write file content).files other = some content := if_pos hother
    obtain rfl := Option.some_inj.mp (hwritten.symm.trans hfound)
    exact .inr ⟨hsealed, hother ▸ hfile⟩
  · have hkept : (s.disk.write file content).files other = s.disk.files other := if_neg hother
    exact h.files other found (hkept.symm.trans hfound)

theorem Provenance.forward (hsha : HexDigests py) (hmem : ask ∈ asks)
    (h : Provenance crypto py server disk asks s) :
    Provenance crypto py server disk asks (AgentMiner.forward crypto py ask s).2 := by
  rcases forward_state crypto h.served ask with hsame | ⟨hgiven, hprepared⟩
  · rw [hsame]
    exact h
  · obtain ⟨tar, s₁, r, hholding, hprepares⟩ := hprepared
    have hheld := h.holding hmem hholding
    obtain ⟨saver, hsaver, himage, hsaved⟩ := hheld.archive tar _ hholding.archive hholding.image
    have hsealed : ∀ blob n, crypto.encryptAgent tar ask.pubkey ask.seed = some blob →
        SealedFor crypto py asks (blob.take n) :=
      fun blob n hblob => ⟨ask, hmem, hgiven, saver, hsaver, himage, tar, blob, n, hsaved, hblob, rfl⟩
    generalize hnext : (AgentMiner.forward crypto py ask s).2 = s' at hprepares
    cases hprepares with
    | cached hknown => exact hheld
    | declined fault hnone hwhy => exact hheld
    | cutOff n fault hnone hblob htarget =>
      exact hheld.write (hsealed _ n hblob) (endsInBlob_target hsha htarget)
    | @published blob file hnone hblob htarget =>
      have hall := hsealed blob blob.length hblob
      rw [List.take_length] at hall
      have hwritten := hheld.write hall (endsInBlob_target hsha htarget)
      refine ⟨hwritten.served, hwritten.archive, hwritten.files, fun pubkey tarSha known hget => ?_⟩
      rw [Dict.get?_insert] at hget
      split at hget
      · rename_i hsame
        exact ⟨ask, hmem, (Prod.ext_iff.mp hsame).1.symm⟩
      · exact hwritten.asked pubkey tarSha known hget

theorem Provenance.run (hsha : HexDigests py) {rest : List AgentAsk} (hsub : rest ⊆ asks)
    (h : Provenance crypto py server disk asks s) :
    Provenance crypto py server disk asks (AgentMiner.run crypto py rest s) := by
  induction rest generalizing s with
  | nil => exact h
  | cons ask rest ih =>
    obtain ⟨hask, hrest⟩ := List.cons_subset.mp hsub
    exact ih hrest (h.forward hsha hask)

/-- The miner at its start. -/
def fresh (server : BlobServer) (disk : Disk) : AgentMiner where
  blobServer := some server
  disk := disk

theorem Provenance.fresh : Provenance crypto py server disk asks (fresh server disk) :=
  ⟨rfl, fun _ _ h => (nomatch h), fun _ _ h => .inl h, fun _ _ _ h => (nomatch h)⟩

theorem Filed.fresh : Filed crypto py server privateKey (fresh server disk) :=
  ⟨rfl, fun _ _ _ h => (nomatch h)⟩

end AgentMiner

open AgentMiner

variable {crypto : AgentCrypto} {server : BlobServer} {disk : Disk} {privateKey : PyStr}

/-- **What the miner adds to its disk is sealed for the keys that it was asked with**, and lies in files
    whose names it ends itself, whatever ids came with the keys. -/
theorem disk_after_asks (hsha : HexDigests py) {asks : List AgentAsk} {file : Location}
    {content : List UInt8} (hfile : (run crypto py asks (fresh server disk)).disk.files file =
      some content) :
    disk.files file = some content ∨ (SealedFor crypto py asks content ∧ EndsInBlob py file) :=
  (Provenance.fresh.run hsha (List.Subset.refl asks)).files file content hfile

theorem pubkey_request (hkey : crypto.publicKey privateKey ≠ []) {ask : AgentAsk}
    (hrequest : ask.synapse = agentRequest py (crypto.publicKeyB64 privateKey)) :
    ask.pubkey = crypto.publicKeyB64 privateKey ∧ ask.pubkey ≠ [] := by
  have hstrip : ask.pubkey = crypto.publicKeyB64 privateKey := by
    unfold AgentAsk.pubkey
    rw [hrequest]
    exact PyStr.strip_of_no_space (b64encode_not_space _)
  refine ⟨hstrip, ?_⟩
  rw [hstrip]
  exact b64encode_ne_nil hkey

/-- What the validator makes of an answer, when it downloads `blob`, in whatever chunks. -/
structure Downloads (crypto : AgentCrypto) (privateKey : PyStr) (answer : SecuritySynapse)
    (blob : List UInt8) (input : BlobInput) : Prop where
  download : ∃ chunks, (∀ chunk ∈ chunks, chunk ≠ []) ∧ chunks.flatten = blob ∧
    input.download = readBlob 0 chunks
  digest : input.ciphertextSha256 = answer.ciphertextSha256
  decrypt : ∀ content, input.decrypt content = crypto.decryptAgent content privateKey

theorem Downloads.content {answer : SecuritySynapse} {blob : List UInt8} {input : BlobInput}
    (h : Downloads crypto privateKey answer blob input)
    (hsize : blob.length ≤ SECURITY_BLOB_MAX_BYTES) : input.download = .ok blob := by
  obtain ⟨chunks, hchunks, rfl, hread⟩ := h.download
  rw [hread]
  exact readBlob_all hchunks (by omega)

/-- What the miner holds once the validator was given a blob, and where it comes from. -/
theorem state_of_given (hsha : HexDigests py) (hopens : Opens crypto privateKey)
    (hkey : crypto.publicKey privateKey ≠ []) {before : List AgentAsk} {ask : AgentAsk}
    (howns : ∀ a ∈ before ++ [ask], a.Owns py (crypto.publicKeyB64 privateKey))
    (hrequest : ask.synapse = agentRequest py (crypto.publicKeyB64 privateKey))
    {answer : SecuritySynapse} {s : AgentMiner}
    (hanswer : forward crypto py ask (run crypto py before (fresh server disk)) = (answer, s))
    (hgiven : answer.hasAgent = some true) :
    Filed crypto py server privateKey s ∧ Provenance crypto py server disk (before ++ [ask]) s ∧
      ∃ tar known,
        AgentMiner.Answered py server ask.imageRef tar (crypto.publicKeyB64 privateKey) known s ∧
          answer = blobAnswer ask known.1 known.2 := by
  obtain ⟨hpubkey, hne⟩ := pubkey_request hkey hrequest
  obtain ⟨hbefore, hown⟩ := List.forall_mem_append.mp howns
  have hfiled : Filed crypto py server privateKey (run crypto py before (fresh server disk)) :=
    Filed.fresh.run hsha hopens hbefore
  have hprovenance : Provenance crypto py server disk (before ++ [ask])
      (run crypto py before (fresh server disk)) :=
    Provenance.fresh.run hsha (List.subset_append_left before [ask])
  have hgiven' : (forward crypto py ask (run crypto py before (fresh server disk))).1.hasAgent =
      some true := by
    rw [hanswer]
    exact hgiven
  obtain ⟨tar, known, hanswered, hsame⟩ := answered_of_given hfiled.served hne hgiven'
  have hfiled' := hfiled.forward hsha hopens (List.forall_mem_singleton.mp hown)
  have hprovenance' :=
    hprovenance.forward hsha (List.mem_append_right before (List.mem_singleton_self ask))
  rw [hanswer] at hanswered hsame hfiled' hprovenance'
  rw [hpubkey] at hanswered
  exact ⟨hfiled', hprovenance', tar, known, hanswered, hsame⟩

/-- No box in which these asks seal the archive for another key has the digest, and no beginning of one. -/
def NoneHas (crypto : AgentCrypto) (py : Interpreter) (pubkey : PyStr) (cipherSha : String)
    (tar : List UInt8) (asks : List AgentAsk) : Prop :=
  ∀ ask ∈ asks, ask.pubkey ≠ pubkey → ∀ blob n,
    crypto.encryptAgent tar ask.pubkey ask.seed = some blob → sha256Hex py (blob.take n) ≠ cipherSha

/-- An archive that docker made of the image of an ask. -/
def Saved (asks : List AgentAsk) (tar : List UInt8) : Prop :=
  ∃ saver ∈ asks, saveImageTar saver.saved = .ok tar

namespace AgentMiner

variable {imageRef : PyStr} {tar : List UInt8} {pubkey : PyStr} {known : PyStr × String}
  {s s' : AgentMiner} {ask : AgentAsk}

/-- The validator is still known, and its file is another's. -/
structure Starved (py : Interpreter) (server : BlobServer) (imageRef : PyStr) (tar : List UInt8)
    (pubkey : PyStr) (known : PyStr × String) (s : AgentMiner) : Prop
    extends Answered py server imageRef tar pubkey known s where
  replaced : ∃ blob, s.disk.files (ownFile py server pubkey tar) = some blob ∧
    sha256Hex py blob ≠ known.2

theorem Starved.write (h : Starved py server imageRef tar pubkey known s) (file : Location)
    {content : List UInt8} (hcontent : sha256Hex py content ≠ known.2) :
    ∃ blob, (s.disk.write file content).files (ownFile py server pubkey tar) = some blob ∧
      sha256Hex py blob ≠ known.2 := by
  by_cases hfile : ownFile py server pubkey tar = file
  · exact ⟨content, if_pos hfile, hcontent⟩
  · obtain ⟨blob, hblob, hdigest⟩ := h.replaced
    exact ⟨blob, (if_neg hfile).trans hblob, hdigest⟩

theorem Starved.forward (himage : ask.imageRef = imageRef)
    (hnone : NoneHas crypto py pubkey known.2 tar [ask])
    (h : Starved py server imageRef tar pubkey known s) :
    Starved py server imageRef tar pubkey known (forward crypto py ask s).2 := by
  refine ⟨h.toAnswered.forward himage, ?_⟩
  rcases forward_state crypto h.served ask with hsame | hprepared
  · rw [hsame]
    exact h.replaced
  · obtain ⟨-, tar', s₁, r, hholding, hprepares⟩ := hprepared
    obtain ⟨rfl, rfl⟩ := h.toAnswered.holding himage hholding
    have hother : s₁.agentBlobs.get? (ask.pubkey, sha256Hex py tar') = none → ask.pubkey ≠ pubkey := by
      rintro hget rfl
      rw [h.entry] at hget
      cases hget
    have hsealed := hnone ask (List.mem_singleton_self ask)
    generalize hnext : (AgentMiner.forward crypto py ask s₁).2 = s' at hprepares
    cases hprepares with
    | cached hknown => exact h.replaced
    | declined fault hnone hwhy => exact h.replaced
    | cutOff n fault hget hblob htarget =>
      exact h.write _ (hsealed (hother hget) _ n hblob)
    | @published blob file hget hblob htarget =>
      have hdigest := hsealed (hother hget) blob blob.length hblob
      rw [List.take_length] at hdigest
      exact h.write _ hdigest

theorem Starved.run {asks : List AgentAsk} (himage : ∀ ask ∈ asks, ask.imageRef = imageRef)
    (hnone : NoneHas crypto py pubkey known.2 tar asks)
    (h : Starved py server imageRef tar pubkey known s) :
    Starved py server imageRef tar pubkey known (run crypto py asks s) := by
  induction asks generalizing s with
  | nil => exact h
  | cons ask rest ih =>
    obtain ⟨hask, hrest⟩ := List.forall_mem_cons.mp himage
    have hfirst : NoneHas crypto py pubkey known.2 tar [ask] :=
      List.forall_mem_singleton.mpr (hnone ask List.mem_cons_self)
    exact ih hrest (fun a ha => hnone a (List.mem_cons_of_mem ask ha)) (h.forward hask hfirst)

/-- A key that has not been asked with, and that comes with the id of the validator, takes its file. -/
theorem starved_of_intruder (hsha : HexDigests py) (hfiled : Filed crypto py server privateKey s)
    (hanswered : Answered py server imageRef tar (crypto.publicKeyB64 privateKey) known s)
    (himage : ask.imageRef = imageRef) (hoffers : ask.offers py = true) (hne : ask.pubkey ≠ [])
    (hid : fileId ask.synapse.pubkeyId = agentKeyId py (crypto.publicKeyB64 privateKey))
    (hnew : s.agentBlobs.get? (ask.pubkey, sha256Hex py tar) = none)
    (hseals : crypto.encryptAgent tar ask.pubkey ask.seed ≠ none)
    (hnone : NoneHas crypto py (crypto.publicKeyB64 privateKey) known.2 tar [ask]) :
    Starved py server imageRef tar (crypto.publicKeyB64 privateKey) known
      (AgentMiner.forward crypto py ask s).2 := by
  refine ⟨hanswered.forward himage, ?_⟩
  have hother : ask.pubkey ≠ crypto.publicKeyB64 privateKey := by
    intro heq
    rw [heq, hanswered.entry] at hnew
    cases hnew
  obtain ⟨held, blob, hheld, -, -, hdir, -⟩ := hfiled.filed _ known.1 known.2 hanswered.entry
  obtain rfl := Option.some_inj.mp (hheld.symm.trans hanswered.archive)
  have hname : blobName ask.synapse.pubkeyId (sha256Hex py held) =
      ownName py (crypto.publicKeyB64 privateKey) held := by
    rw [blobName_eq, hid]
    rfl
  -- the id alone makes the name, so the file that is written is the validator's
  have htarget : s.disk.target server.directory (blobName ask.synapse.pubkeyId (sha256Hex py held)) =
      some (ownFile py server (crypto.publicKeyB64 privateKey) held) := by
    have hfree : ¬ s.disk.isDir (server.directory ++
        [ownName py (crypto.publicKeyB64 privateKey) held]) = true := Bool.eq_false_iff.mp hdir
    rw [hname, target_plain (ownName_text hsha _ held) (length_ownName hsha _ held), if_neg hfree]
    rfl
  have hsealed := hnone ask (List.mem_singleton_self ask) hother
  obtain ⟨r, hrun, -⟩ := forward_blob crypto hanswered.served hoffers hne
  rcases agentBlobFor_cases hrun with ⟨-, -, hunkept⟩ | ⟨tar', s₁, hholding, hprepares⟩
  · rw [hanswered.kept himage] at hunkept
    cases hunkept
  · obtain ⟨rfl, rfl⟩ := hanswered.holding himage hholding
    generalize hnext : (AgentMiner.forward crypto py ask s₁).2 = s' at hprepares
    cases hprepares with
    | cached hknown =>
      rw [hnew] at hknown
      cases hknown
    | declined fault hnone hwhy =>
      rcases hwhy with hwhy | hwhy
      · exact absurd hwhy hseals
      · rw [htarget] at hwhy
        cases hwhy
    -- the beginning of the box that was written is not the old box either
    | cutOff n fault hget hblob htaken =>
      obtain rfl := Option.some_inj.mp (htaken.symm.trans htarget)
      exact ⟨_, if_pos rfl, hsealed _ n hblob⟩
    | @published blob file hget hblob htaken =>
      obtain rfl := Option.some_inj.mp (htaken.symm.trans htarget)
      have hdigest := hsealed blob blob.length hblob
      rw [List.take_length] at hdigest
      exact ⟨blob, if_pos rfl, hdigest⟩

/-- The key that is known is given the same blob again. -/
theorem Answered.again (crypto : AgentCrypto) (himage : ask.imageRef = imageRef) (hoffers : ask.offers py = true)
    (hkey : ask.pubkey = pubkey) (hne : pubkey ≠ [])
    (h : Answered py server imageRef tar pubkey known s) :
    (AgentMiner.forward crypto py ask s).1 = blobAnswer ask known.1 known.2 := by
  subst hkey
  obtain ⟨r, hrun, hok, -⟩ := forward_blob crypto h.served hoffers hne
  rcases agentBlobFor_cases hrun with ⟨-, -, hunkept⟩ | ⟨tar', s₁, hholding, hprepares⟩
  · rw [h.kept himage] at hunkept
    cases hunkept
  · obtain ⟨rfl, rfl⟩ := h.holding himage hholding
    generalize hnext : (AgentMiner.forward crypto py ask s₁).2 = s' at hprepares
    cases hprepares with
    | cached hknown =>
      obtain rfl := Option.some_inj.mp (hknown.symm.trans h.entry)
      exact hok _ _ rfl
    | declined fault hnone hwhy =>
      rw [h.entry] at hnone
      cases hnone
    | cutOff n fault hnone hblob htarget =>
      rw [h.entry] at hnone
      cases hnone
    | published hnone hblob htarget =>
      rw [h.entry] at hnone
      cases hnone

end AgentMiner

/-- The digest of an answer is not that of the blob: the evaluation ends before any intake, and nothing is
    scored. -/
theorem Downloads.unscored {answer : SecuritySynapse} {blob : List UInt8} {input : BlobInput}
    (h : Downloads crypto privateKey answer blob input) (hne : answer.ciphertextSha256 ≠ "")
    (hdigest : sha256Hex py blob ≠ answer.ciphertextSha256) :
    input.tar py = .error { reward := none } := by
  obtain ⟨chunks, hchunks, rfl, hread⟩ := h.download
  unfold BlobInput.tar
  cases hdownload : input.download with
  | error e => rfl
  | ok content =>
    obtain rfl := readBlob_ok hchunks (hread.symm.trans hdownload)
    dsimp only
    rw [h.digest, if_pos ⟨hne, hdigest⟩]

section Witness

/-- A digest of sixty-four digits. -/
def toyDigest (data : List Nat) : String :=
  String.ofList ((List.range 64).map fun i =>
    Nat.digitChar (data.foldl (fun h d => (h * 31 + d + i) % 65521) 7 % 16))

def toyInterpreter : Interpreter := { cpython with sha256 := toyDigest }

theorem hexDigests_toy : HexDigests toyInterpreter where
  length data := by
    show (toyDigest data).length = 64
    unfold toyDigest
    rw [String.length_ofList, List.length_map, List.length_range]
  digits data c hc := by
    have hchars : ∀ n < 16, (48 ≤ (Nat.digitChar n).toNat ∧ (Nat.digitChar n).toNat ≤ 57) ∨
        (97 ≤ (Nat.digitChar n).toNat ∧ (Nat.digitChar n).toNat ≤ 102) := by decide
    have hc : c ∈ PyStr.ofString (toyDigest data) := hc
    unfold toyDigest PyStr.ofString at hc
    rw [String.toList_ofList, List.map_map] at hc
    obtain ⟨i, -, rfl⟩ := List.mem_map.mp hc
    exact hchars _ (Nat.mod_lt _ (by decide))

def toyTag (pubkey : PyStr) : UInt8 := UInt8.ofNat pubkey.sum

def toyKey (privateKey : PyStr) : List UInt8 := List.replicate 32 (UInt8.ofNat privateKey.sum)

/-- A box that names the key it is for. -/
def toySeal (tar : List UInt8) (pubkey : PyStr) (seed : Nat) : Option (List UInt8) :=
  if pubkey.length = 44 then some (toyTag pubkey :: UInt8.ofNat seed :: tar) else none

def toyOpen (blob : List UInt8) (pubkey : PyStr) : Option (List UInt8) :=
  if blob.head? = some (toyTag pubkey) then some (blob.drop 2) else none

theorem toyOpen_sealed {tar blob : List UInt8} {pubkey : PyStr} {seed : Nat}
    (h : toySeal tar pubkey seed = some blob) : toyOpen blob pubkey = some tar := by
  obtain rfl := Option.some_inj.mp (Option.ite_none_right_eq_some.mp h).2
  exact if_pos rfl

def toyCrypto : AgentCrypto where
  encryptAgent := toySeal
  decryptAgent blob privateKey := toyOpen blob (b64encode (toyKey privateKey))
  publicKey := toyKey

theorem opens_toy (privateKey : PyStr) : Opens toyCrypto privateKey :=
  fun _ _ _ hblob => toyOpen_sealed hblob

def blobHost : BlobServer where
  advertisedHost := PyStr.ofString "203.0.113.7"
  port := 8912
  directory := ["tmp", "secval-blob-1"].map PyStr.ofString

theorem hasAddress_blobHost : HasAddress blobHost where
  host_ne := by decide
  host_text := by decide
  port_ne := by decide +kernel
  port_digits := by decide +kernel

/-- The asks of validators, whose docker makes an archive of three bytes of the image. -/
def askWith (pubkey pubkeyId : PyStr) (seed : Nat) : AgentAsk where
  synapse := { validatorPubkeyB64 := pubkey, pubkeyId := pubkeyId }
  enabled := some (PyStr.ofString "1")
  image := some (PyStr.ofString "agent:1")
  saved := { first := .exited 0 [7, 8, 9] "" }
  now := "2026-01-01T00:00:00+00:00"
  seed := seed

def keyOf (privateKey : Nat) : PyStr := toyCrypto.publicKeyB64 [privateKey]

def askOf (privateKey seed : Nat) : AgentAsk :=
  askWith (keyOf privateKey) (agentKeyId toyInterpreter (keyOf privateKey)) seed

theorem request_askOf (privateKey seed : Nat) : (askOf privateKey seed).synapse =
    agentRequest toyInterpreter (toyCrypto.publicKeyB64 [privateKey]) := rfl

def emptyDisk : Disk where
  isDir l := l = [] ∨ l = blobHost.directory

theorem disk_after_asks_one_validator :
    SealedFor toyCrypto toyInterpreter [askOf 1 3] [toyTag (keyOf 1), 3, 7, 8, 9] := by
  have hfile : (run toyCrypto toyInterpreter [askOf 1 3] (fresh blobHost emptyDisk)).disk.files
      (ownFile toyInterpreter blobHost (keyOf 1) [7, 8, 9]) =
        some [toyTag (keyOf 1), 3, 7, 8, 9] := by
    decide +kernel
  rcases disk_after_asks hexDigests_toy hfile with hbefore | ⟨hsealed, -⟩
  · cases hbefore
  · exact hsealed

theorem answer_first (privateKey seed : Nat) :
    forward toyCrypto toyInterpreter (askOf privateKey seed)
        (run toyCrypto toyInterpreter [] (fresh blobHost emptyDisk)) =
      ((forward toyCrypto toyInterpreter (askOf privateKey seed) (fresh blobHost emptyDisk)).1,
        (forward toyCrypto toyInterpreter (askOf privateKey seed) (fresh blobHost emptyDisk)).2) := by
  have hstart : run toyCrypto toyInterpreter [] (fresh blobHost emptyDisk) =
      fresh blobHost emptyDisk := rfl
  rw [hstart]

/-- A key of its own, with the id of another validator. -/
def intrudingAsk : AgentAsk := askWith (keyOf 2) (agentKeyId toyInterpreter (keyOf 1)) 5

theorem intrudingAsk_seals : toyCrypto.encryptAgent [7, 8, 9] intrudingAsk.pubkey intrudingAsk.seed =
    some [toyTag intrudingAsk.pubkey, 5, 7, 8, 9] := by
  decide +kernel

theorem intrudingAsk_differs : ∀ n < 6,
    sha256Hex toyInterpreter ([toyTag intrudingAsk.pubkey, 5, 7, 8, 9].take n) ≠
      (forward toyCrypto toyInterpreter (askOf 1 3) (fresh blobHost emptyDisk)).1.ciphertextSha256 := by
  decide +kernel

end Witness

end TaoSubnet
