import ArmControl.RemoteRt.UploadExchange

/-!
# What a returned upload id means

* `Inv`            the candidate, the frames and the replies belong to the newest upload, or are older;
* `control_inv`    a step of the control thread keeps it;
* `inv_step`       every step does;
* `Unsent`         the requests that were cancelled before dispatch;
* `upload_exact`   **the server held the sealed candidate, bit for bit, and a COMMIT cancelled before
                   dispatch was never sent.**
-/

namespace ArmControl.RemoteRt

/-- the request of an exchange in progress -/
def Stage.seq? : Stage → Option ℕ
  | .start => none
  | .flag _ q | .scope _ q | .send _ q | .wait _ q => some q

namespace Exchange
open ArmControl.Rt ArmControl.Rt.Server Run

/-- the SEALs answered OK on this connection: upload and request -/
def oks (s : Exchange) : List (ℕ × ℕ) := s.replies.filterMap sealOk

/-- the call in progress, seen from the newest upload -/
structure CallOk (s : Exchange) (c : Call) : Prop where
  named : ∀ b ∈ c.frames, named b ≤ s.uploadId
  own : ∀ b ∈ c.frames, ∀ u ∈ s.newest, Own u b
  other : c.upload = none → ∀ b ∈ c.frames, ∀ p, b ≠ .referenceSeal p
  upload : ∀ u ∈ c.upload, u ∈ s.newest ∧ (∃ pre p, c.frames = pre ++ [.referenceSeal p]) ∧
    ∀ b ∈ c.frames, ∀ p, b = .referenceSeal p → p.uploadId = u.id
  seq : ∀ q ∈ c.stage.seq?, s.waitSeq = some q ∧ q = s.referenceSeq ∧ ∀ u ∈ c.upload, u.startSeq < q

/-- `held u`: the server has held the sealed candidate of `u` -/
structure Inv (held : Upload → Prop) (s : Exchange) : Prop where
  commitReply : s.srv.loc.commitReply.operation ≠ sealOp
  used : ∀ r ∈ s.srv.loc.upload, Used r
  bounded : ∀ r ∈ s.srv.loc.upload, r.present = true → r.candidate.identity.uploadId ≤ s.uploadId
  candidate : ∀ u ∈ s.newest, ∀ r ∈ s.srv.loc.upload, Matches u r
  named : ∀ f ∈ s.requests, named f.body ≤ s.uploadId
  own : ∀ f ∈ s.requests, ∀ u ∈ s.newest, Own u f.body
  seqs : ∀ f ∈ s.requests, f.seq ≤ s.referenceSeq
  seals : ∀ f ∈ s.requests, ∀ u ∈ s.newest, u.startSeq < f.seq → ∀ p, f.body = .referenceSeal p →
    p.uploadId = u.id
  oks : ∀ x ∈ s.oks, x.2 ≤ s.referenceSeq ∧ ∀ u ∈ s.newest, u.startSeq < x.2 →
    held u ∧ Past u.id s.srv.loc.upload
  newest : ∀ u ∈ s.newest, u.id = s.uploadId ∧ u.startSeq ≤ s.referenceSeq
  sending : ∀ b ∈ s.sending, otherFrame b = true
  call : ∀ c ∈ s.call, s.CallOk c
  reply : s.reply = some (sealOp, .ok) → ∃ i q, s.waitSeq = some q ∧ (i, q) ∈ s.oks

theorem forall_none {α : Type*} {P : α → Prop} : ∀ a ∈ (none : Option α), P a := fun _ ha => nomatch ha

variable {held held' : Upload → Prop} {s : Exchange}

/-- a step that leaves the request and the upload of the call alone -/
theorem CallOk.keep {s' : Exchange} {c : Call} (h : s.CallOk c) (hid : s'.uploadId = s.uploadId)
    (hnewest : s'.newest = s.newest) (hwait : s'.waitSeq = s.waitSeq) (hseq : s'.referenceSeq = s.referenceSeq) :
    s'.CallOk c := by
  refine ⟨?_, ?_, h.other, ?_, ?_⟩
  · rw [hid]
    exact h.named
  · rw [hnewest]
    exact h.own
  · rw [hnewest]
    exact h.upload
  · rw [hwait, hseq]
    exact h.seq

theorem Inv.mono (h : Inv held s) (hh : ∀ u, held u → held' u) : Inv held' s :=
  { h with
    oks := fun x hx => ⟨(h.oks x hx).1, fun u hu hlt => ⟨hh u ((h.oks x hx).2 u hu hlt).1,
      ((h.oks x hx).2 u hu hlt).2⟩⟩ }

/-! ## the server -/

/-- the control thread's step, by what it does to the upload -/
theorem served_inv {cfg : ServerConfig} {env : CtlEnv} {srv : Server} {served : ℕ} (h : Inv held s)
    (hstep : UploadStep cfg env s.srv srv) (hframe : ∀ f ∈ env.frame, f ∈ s.requests)
    (hmono : ∀ u, held u → held' u)
    (hnow : ∀ u, Holds { s with srv := srv } u → held' u) :
    Inv held' { s with
      srv := srv, served := served, replies := s.replies ++ srv.sent.drop s.srv.sent.length } := by
  have hnew {l : List Reply} {oks : List (ℕ × ℕ)} (hl : SendsSeals s.srv.sent l oks) :
      (l.drop s.srv.sent.length).filterMap sealOk = oks := by
    obtain ⟨new, rfl, hnew⟩ := hl
    rw [List.drop_left]
    exact hnew
  have hreply {oks : List (ℕ × ℕ)} (hl : SendsSeals s.srv.sent srv.sent oks) :
      Exchange.oks { s with
        srv := srv, served := served, replies := s.replies ++ srv.sent.drop s.srv.sent.length } = s.oks ++ oks := by
    show (s.replies ++ srv.sent.drop s.srv.sent.length).filterMap sealOk = _
    rw [List.filterMap_append, hnew hl]
    rfl
  rcases hstep with hkeep | ⟨f, hf, hcalled⟩
  · have hoks := hreply (hkeep.sent h.commitReply)
    rw [List.append_nil] at hoks
    have hpast {u : Upload} (hp : Past u.id s.srv.loc.upload) : Past u.id srv.loc.upload :=
      past_fades hp hkeep.upload
    refine ⟨hkeep.commitReply h.commitReply, used_fades h.used hkeep.upload, ?_, ?_, h.named, h.own, h.seqs,
      h.seals, ?_, h.newest, h.sending, ?_, ?_⟩
    · intro r' hr' hp
      obtain ⟨r, hr, hrp, hcand, -⟩ := hkeep.upload.candidate r' hr' hp
      rw [hcand]
      exact h.bounded r hr hrp
    · intro u hu
      exact matches_fades (h.candidate u hu) hkeep.upload
    · intro x hx
      obtain ⟨hle, hpast'⟩ := h.oks x (hoks ▸ hx)
      exact ⟨hle, fun u hu hlt => ⟨hmono u (hpast' u hu hlt).1, hpast (hpast' u hu hlt).2⟩⟩
    · exact fun c hc => (h.call c hc).keep rfl rfl rfl rfl
    · intro hr
      obtain ⟨i, q, hq, hi⟩ := h.reply hr
      refine ⟨i, q, hq, ?_⟩
      rw [hoks]
      exact hi
  · obtain ⟨hcommit, r, r', oks, hfades, hcall, hr', hsent⟩ := hcalled
    have hmem := hframe f hf
    have hoks := hreply hsent
    have hone {v : ReferenceUpload} (hv : v ∈ srv.loc.upload) : v = r' := by
      rw [hr'] at hv
      exact (Option.mem_some_iff.mp hv).symm
    have hof : ∀ u ∈ s.newest, Matches u r' := fun u hu =>
      matches_call (matches_fades (h.candidate u hu) hfades r rfl) (h.own f hmem u hu) hcall
    have hpast {u : Upload} (hp : Past u.id s.srv.loc.upload) : Past u.id srv.loc.upload :=
      hr' ▸ past_call (past_fades hp hfades) hcall
    have hused : Used r' := used_call (used_fades h.used hfades r rfl) hcall
    refine ⟨hcommit ▸ h.commitReply, ?_, ?_, ?_, h.named, h.own, h.seqs, h.seals, ?_, h.newest, h.sending, ?_, ?_⟩
    · intro v hv
      rw [hone hv]
      exact hused
    · intro v hv hp
      rw [hone hv] at hp ⊢
      rcases call_id hcall with ⟨-, hsame, hid, -⟩ | ⟨b, hb, -, -, hid⟩
      · rw [hid]
        obtain ⟨w, hw, hwp, hcand, -⟩ := hfades.candidate r rfl (hsame ▸ hp)
        rw [hcand]
        exact h.bounded w hw hwp
      · have hnamed := h.named f hmem
        rw [hb] at hnamed
        rw [hid]
        exact hnamed
    · intro u hu v hv
      rw [hone hv]
      exact hof u hu
    · intro x hx
      rw [hoks] at hx
      rcases List.mem_append.mp hx with hx | hx
      · obtain ⟨hle, hpast'⟩ := h.oks x hx
        exact ⟨hle, fun u hu hlt => ⟨hmono u (hpast' u hu hlt).1, hpast (hpast' u hu hlt).2⟩⟩
      · -- the SEAL of this step
        obtain ⟨hseq, ⟨p, hp, hid⟩, hpresent, hsealed, hcand⟩ := call_oks hcall hx
        rw [hseq]
        refine ⟨h.seqs f hmem, fun u hu hlt => ?_⟩
        have hown : r'.candidate.identity.uploadId = u.id :=
          hcand.trans (hid.symm.trans (h.seals f hmem u hu hlt p hp))
        have hpart := hof u hu hpresent hown
        refine ⟨hnow u ⟨r', hr', hpresent, hsealed, hpart.identity, hpart.curve hsealed⟩, ?_⟩
        exact ⟨r', hr', hown ▸ hused hpresent, fun _ _ => hsealed⟩
    · exact fun c hc => (h.call c hc).keep rfl rfl rfl rfl
    · intro hr
      obtain ⟨i, q, hq, hi⟩ := h.reply hr
      refine ⟨i, q, hq, ?_⟩
      rw [hoks]
      exact List.mem_append_left _ hi

theorem control_inv {cfg : ServerConfig} {ids : SessionIds} {env : CtlEnv} (h : Inv held s)
    (hmono : ∀ u, held u → held' u) (hnow : ∀ u, (s.control cfg ids env).Holds u → held' u) :
    Inv held' (s.control cfg ids env) := by
  revert hnow
  unfold Exchange.control
  split
  · exact fun _ => h.mono hmono
  · rename_i hopen
    intro hnow
    refine served_inv h (controlStep_upload cfg ids s.srv _ hopen) ?_ hmono hnow
    intro f hf
    dsimp only at hf
    split at hf
    · exact List.mem_of_getElem? hf
    · cases hf

/-- a thread that leaves the control thread's locals alone -/
theorem quiet_inv {srv : Server} (h : Inv held s) (hloc : srv.loc = s.srv.loc) :
    Inv held { s with srv := srv } := by
  refine ⟨hloc ▸ h.commitReply, hloc ▸ h.used, hloc ▸ h.bounded, hloc ▸ h.candidate, h.named, h.own, h.seqs,
    h.seals, ?_, h.newest, h.sending, fun c hc => ?_, h.reply⟩
  · show ∀ x ∈ s.oks, x.2 ≤ s.referenceSeq ∧ ∀ u ∈ s.newest, u.startSeq < x.2 → held u ∧ Past u.id srv.loc.upload
    rw [hloc]
    exact h.oks
  · exact (h.call c hc).keep rfl rfl rfl rfl

/-! ## the client -/

theorem frames_own (u : Upload) {sha256 : List (BitVec 8) → Digest} {b : Body} (hb : b ∈ u.frames sha256) :
    Exchange.named b = u.id ∧ Own u b ∧ ∀ p, b = .referenceSeal p → p.uploadId = u.id := by
  rcases List.mem_append.mp hb with hb | hb
  · rcases List.mem_cons.mp hb with rfl | hb
    · exact ⟨rfl, fun _ => rfl, nofun⟩
    · obtain ⟨i, -, rfl⟩ := List.mem_map.mp hb
      refine ⟨rfl, fun _ => ?_, nofun⟩
      show Bytes.slice _ _ _ = Bytes.slice u.body (referenceChunkBytes * i) (Bytes.slice _ _ _).length
      simp only [Bytes.slice, List.length_take]
      exact List.take_eq_take_min
  · obtain rfl := List.mem_singleton.mp hb
    refine ⟨rfl, trivial, fun p hp => ?_⟩
    rw [← Body.referenceSeal.inj hp]

/-- the frame of any other call adds to no upload -/
theorem frame_other {op : Operation} {lastUpload session epoch : ℕ} {b : Body}
    (hb : op.frame lastUpload session epoch = some b) :
    Exchange.named b = 0 ∧ (∀ u, Own u b) ∧ ∀ p, b ≠ .referenceSeal p := by
  cases op with
  | upload a => cases hb
  | abort id =>
    unfold Operation.frame at hb
    dsimp only at hb
    split at hb
    · cases hb
    · obtain rfl := Option.some.inj hb
      exact ⟨rfl, fun _ => trivial, nofun⟩
  | _ =>
    obtain rfl := Option.some.inj hb
    exact ⟨rfl, fun _ => trivial, nofun⟩

/-- the call has ended -/
theorem Inv.idle (h : Inv held s) {groupCommitting : Bool} {results : List Outcome} :
    Inv held { s with
      call := none, waitSeq := none, reply := none, groupCommitting := groupCommitting, results := results } :=
  { h with call := forall_none, reply := nofun }

theorem fail_inv (h : Inv held s) (c : Call) (e : LinkError) : Inv held (s.fail c e) := h.idle

theorem ends_inv (h : Inv held s) (r : Outcome) : Inv held (s.ends r) :=
  { h with call := fun c hc => (h.call c hc).keep rfl rfl rfl rfl }

theorem beginUpload_inv {cfg : ServerConfig} {a : UploadArgs} {session epoch : ℕ} (h : Inv held s)
    (hidle : s.call = none) : Inv held (s.beginUpload cfg a session epoch) := by
  unfold beginUpload
  split
  · rename_i hok
    have hle {i : ℕ} (hi : i ≤ s.uploadId) : i ≤ s.uploadId + 1 := Nat.le_succ_of_le hi
    refine ⟨h.commitReply, h.used, fun r hr hp => hle (h.bounded r hr hp), ?_, fun f hf => hle (h.named f hf), ?_,
      h.seqs, ?_, ?_, ?_, h.sending, ?_, h.reply⟩
    · intro u hu r hr hp hid
      obtain rfl := Option.mem_some_iff.mp hu
      have hbound := h.bounded r hr hp
      rw [hid] at hbound
      exact absurd hbound (Nat.not_succ_le_self _)
    · intro f hf u hu
      obtain rfl := Option.mem_some_iff.mp hu
      have hbound := h.named f hf
      cases hb : f.body with
      | referenceBegin b =>
        intro (hid : b.uploadId = s.uploadId + 1)
        rw [hb] at hbound
        exact absurd (hid.symm.trans_le hbound) (Nat.not_succ_le_self _)
      | referenceChunk c =>
        intro (hid : c.uploadId = s.uploadId + 1)
        rw [hb] at hbound
        exact absurd (hid.symm.trans_le hbound) (Nat.not_succ_le_self _)
      | _ => trivial
    · intro f hf u hu hlt
      obtain rfl := Option.mem_some_iff.mp hu
      exact absurd (h.seqs f hf) (not_le.mpr hlt)
    · intro x hx
      refine ⟨(h.oks x hx).1, fun u hu hlt => ?_⟩
      obtain rfl := Option.mem_some_iff.mp hu
      exact absurd (h.oks x hx).1 (not_le.mpr hlt)
    · intro u hu
      obtain rfl := Option.mem_some_iff.mp hu
      exact ⟨rfl, le_refl _⟩
    · intro c hc
      obtain rfl := Option.mem_some_iff.mp hc
      refine ⟨fun b hb => (frames_own _ hb).1.le, fun b hb u hu => ?_, nofun, fun u hu => ?_, forall_none⟩
      · obtain rfl := Option.mem_some_iff.mp hu
        exact (frames_own _ hb).2.1
      · obtain rfl := Option.mem_some_iff.mp hu
        exact ⟨rfl, ⟨_, _, rfl⟩, fun b hb => (frames_own _ hb).2.2⟩
  · have hnone' : Inv held { s with uploadCancel := false } :=
      { h with call := fun c hc => absurd (hidle ▸ hc) nofun }
    exact ends_inv hnone' _

theorem enter_inv {cfg : ServerConfig} {op : Operation} {session epoch : Option ℕ} (h : Inv held s) :
    Inv held (s.enter cfg op session epoch) := by
  unfold enter
  dsimp only
  split
  · exact ends_inv h _
  · split
    · exact ends_inv h _
    · split
      · split
        · exact ends_inv h _
        · rename_i hidle
          exact beginUpload_inv h (Option.not_isSome_iff_eq_none.mp hidle)
      · exact { h with call := fun c hc => (h.call c hc).keep rfl rfl rfl rfl }

theorem acquire_inv (h : Inv held s) (i : ℕ) : Inv held (s.acquire i) := by
  unfold acquire
  split
  · rename_i op session epoch hidle hwait
    have hfree : Inv held { s with
        waiting := s.waiting.eraseIdx i, uploadCancel := if op.clears then false else s.uploadCancel } :=
      { h with call := fun c hc => absurd (hidle ▸ hc) nofun }
    dsimp only
    split
    · exact ends_inv hfree _
    · rename_i body hbody
      obtain ⟨hnamed, hown, hseal⟩ := frame_other hbody
      refine { hfree with call := fun c hc => ?_ }
      obtain rfl := Option.mem_some_iff.mp hc
      refine ⟨fun b hb => ?_, fun b hb u _ => ?_, fun _ b hb => ?_, forall_none, forall_none⟩
      all_goals obtain rfl := List.mem_singleton.mp hb
      · rw [hnamed]
        exact Nat.zero_le _
      · exact hown u
      · exact hseal
  · exact h

/-- the stage moves on within one request -/
theorem stage_inv (h : Inv held s) {c : Call} (hc : s.call = some c) {stage : Stage}
    (hseq : stage.seq? = c.stage.seq?) : Inv held { s with call := some { c with stage := stage } } := by
  have hcall := h.call c hc
  refine { h with call := fun c' hc' => ?_ }
  obtain rfl := Option.mem_some_iff.mp hc'
  exact ⟨hcall.named, hcall.own, hcall.other, hcall.upload, fun q hq => hcall.seq q (hseq ▸ hq)⟩

/-- one request more, of the exchange in progress -/
theorem sent_inv (h : Inv held s) {c : Call} (hc : s.call = some c) {body : Body} (hbody : body ∈ c.frames)
    {seq : ℕ} (hseq : c.stage.seq? = some seq) {stage : Stage} (hstage : stage.seq? = some seq) :
    Inv held { s with
      requests := s.requests ++ [{ seq := seq, body := body }], call := some { c with stage := stage } } := by
  have hcall := h.call c hc
  obtain ⟨-, hlast, -⟩ := hcall.seq seq hseq
  have hstaged := stage_inv h hc (hstage.trans hseq.symm)
  refine { hstaged with named := ?_, own := ?_, seqs := ?_, seals := ?_, call := ?_ }
  · intro f hf
    rcases List.mem_append.mp hf with hf | hf
    · exact h.named f hf
    · rw [List.mem_singleton.mp hf]
      exact hcall.named body hbody
  · intro f hf u hu
    rcases List.mem_append.mp hf with hf | hf
    · exact h.own f hf u hu
    · rw [List.mem_singleton.mp hf]
      exact hcall.own body hbody u hu
  · intro f hf
    rcases List.mem_append.mp hf with hf | hf
    · exact h.seqs f hf
    · rw [List.mem_singleton.mp hf]
      exact hlast.le
  · intro f hf u hu hlt p hp
    rcases List.mem_append.mp hf with hf | hf
    · exact h.seals f hf u hu hlt p hp
    · rw [List.mem_singleton.mp hf] at hp
      cases hupload : c.upload with
      | none => exact absurd hp (hcall.other hupload body hbody p)
      | some v =>
        obtain ⟨hv, -, hid⟩ := hcall.upload v hupload
        obtain rfl := Option.mem_unique hv hu
        exact hid body hbody p hp
  · exact fun c' hc' => (hstaged.call c' hc').keep rfl rfl rfl rfl

theorem finish_inv (h : Inv held s) {c : Call} (hc : s.call = some c) {body : Body} {rest : List Body}
    (hframes : c.frames = body :: rest) : Inv held (s.finish c rest) := by
  have hcall := h.call c hc
  unfold finish
  dsimp only
  split
  · rename_i b more
    refine { h with call := fun c' hc' => ?_, reply := nofun }
    obtain rfl := Option.mem_some_iff.mp hc'
    have hmem {x : Body} (hx : x ∈ b :: more) : x ∈ c.frames := by
      rw [hframes]
      exact List.mem_cons_of_mem _ hx
    refine ⟨fun x hx => hcall.named x (hmem hx), fun x hx => hcall.own x (hmem hx),
      fun hn x hx => hcall.other hn x (hmem hx), fun u hu => ?_, forall_none⟩
    obtain ⟨hnew, ⟨pre, p, hpre⟩, hid⟩ := hcall.upload u hu
    refine ⟨hnew, ?_, fun x hx => hid x (hmem hx)⟩
    rw [hframes] at hpre
    cases pre with
    | nil => exact absurd (List.cons.inj hpre).2 nofun
    | cons x pre => exact ⟨pre, p, (List.cons.inj hpre).2⟩
  · exact h.idle

/-- a step of the caller that has the lock -/
theorem advance_inv (h : Inv held s) (ok expired : Bool) : Inv held (s.advance ok expired) := by
  unfold advance
  split
  · exact h
  · rename_i c hc
    split
    · exact h
    · rename_i body rest hframes
      have hcall := h.call c hc
      have hbody : body ∈ c.frames := hframes ▸ List.mem_cons_self
      cases hstage : c.stage with
      | start =>
        dsimp only
        split
        · exact fail_inv h c _
        · have hnext : Inv held { s with referenceSeq := s.referenceSeq + 1, call := none } :=
            { h with
              seqs := fun f hf => Nat.le_succ_of_le (h.seqs f hf)
              oks := fun x hx => ⟨Nat.le_succ_of_le (h.oks x hx).1, (h.oks x hx).2⟩
              newest := fun u hu => ⟨(h.newest u hu).1, Nat.le_succ_of_le (h.newest u hu).2⟩
              call := forall_none }
          split
          · exact hnext.idle
          · split
            · exact hnext.idle
            · refine { hnext with call := fun c' hc' => ?_, reply := nofun }
              obtain rfl := Option.mem_some_iff.mp hc'
              refine ⟨hcall.named, hcall.own, hcall.other, hcall.upload, fun q hq => ?_⟩
              obtain rfl := Option.mem_some_iff.mp hq
              refine ⟨rfl, rfl, fun u hu => ?_⟩
              exact Nat.lt_succ_of_le (h.newest u (hcall.upload u hu).1).2
      | flag attempt seq =>
        dsimp only
        split
        · exact fail_inv h c _
        · exact stage_inv h hc (hstage ▸ rfl)
      | scope attempt seq =>
        dsimp only
        split
        · exact fail_inv h c _
        · exact stage_inv h hc (hstage ▸ rfl)
      | send attempt seq =>
        dsimp only
        split
        · exact sent_inv h hc hbody (hstage ▸ rfl) rfl
        · exact fail_inv h c _
      | wait attempt seq =>
        dsimp only
        split
        · split
          · exact fail_inv h c _
          · exact finish_inv h hc hframes
        · split
          · exact fail_inv h c _
          · split
            · exact h
            · split
              · exact stage_inv h hc (hstage ▸ rfl)
              · exact fail_inv h c _

theorem prepare_inv (h : Inv held s) (b : Body) : Inv held (s.prepare b) := by
  unfold prepare
  split
  · rename_i hother
    refine { h with sending := fun x hx => ?_, call := fun c hc => ?_ }
    · rcases List.mem_append.mp hx with hx | hx
      · exact h.sending x hx
      · rw [List.mem_singleton.mp hx]
        exact hother
    · exact (h.call c hc).keep rfl rfl rfl rfl
  · exact h

/-- a frame of another thread adds to no upload -/
theorem other_own {b : Body} (hb : otherFrame b = true) :
    Exchange.named b = 0 ∧ (∀ u, Own u b) ∧ ∀ p, b ≠ .referenceSeal p := by
  cases b with
  | arm => exact ⟨rfl, fun _ => trivial, nofun⟩
  | disarm => exact ⟨rfl, fun _ => trivial, nofun⟩
  | ping => exact ⟨rfl, fun _ => trivial, nofun⟩
  | status => exact ⟨rfl, fun _ => trivial, nofun⟩
  | setActive => exact ⟨rfl, fun _ => trivial, nofun⟩
  | claim => exact ⟨rfl, fun _ => trivial, nofun⟩
  | referenceMode => exact ⟨rfl, fun _ => trivial, nofun⟩
  | modeSelect => exact ⟨rfl, fun _ => trivial, nofun⟩
  | unknown => exact ⟨rfl, fun _ => trivial, nofun⟩
  | _ => cases hb

theorem transmit_inv (h : Inv held s) (i : ℕ) (ok : Bool) : Inv held (s.transmit i ok) := by
  unfold transmit
  split
  · exact h
  · rename_i b hb
    obtain ⟨hnamed, hown, hseal⟩ := other_own (h.sending b (List.mem_of_getElem? hb))
    have hrest : Inv held { s with sending := s.sending.eraseIdx i } :=
      { h with
        sending := fun x hx => h.sending x (List.mem_of_mem_eraseIdx hx)
        call := fun c hc => (h.call c hc).keep rfl rfl rfl rfl }
    dsimp only
    split
    · refine { hrest with named := ?_, own := ?_, seqs := ?_, seals := ?_, call := fun c hc => ?_ }
      all_goals first
        | exact (h.call c hc).keep rfl rfl rfl rfl
        | intro f hf
          rcases List.mem_append.mp hf with hf | hf
      · exact h.named f hf
      · rw [List.mem_singleton.mp hf]
        exact hnamed.trans_le (Nat.zero_le _)
      · exact h.own f hf
      · rw [List.mem_singleton.mp hf]
        exact fun u _ => hown u
      · exact h.seqs f hf
      · rw [List.mem_singleton.mp hf]
        exact Nat.zero_le _
      · exact h.seals f hf
      · rw [List.mem_singleton.mp hf]
        exact fun u _ _ p hp => absurd hp (hseal p)
    · exact hrest

/-- a SEAL's OK that the client hears was sent as one -/
theorem heard_seal {r : Reply} {seq : ℕ} (h : heard r = some (seq, sealOp, .ok)) : ∃ i, sealOk r = some (i, seq) := by
  cases r with
  | reference p q =>
    obtain ⟨-, hsame⟩ := Option.ite_none_right_eq_some.mp h
    obtain ⟨rfl, hrest⟩ := Prod.mk.inj (Option.some.inj hsame)
    exact ⟨p.uploadId, if_pos (Prod.mk.inj hrest)⟩
  | group p q =>
    obtain ⟨hrange, hsame⟩ := Option.ite_none_right_eq_some.mp h
    obtain ⟨-, hrest⟩ := Prod.mk.inj (Option.some.inj hsame)
    have hop : p.operation = 34 := (Prod.mk.inj hrest).1
    omega
  | _ => cases h

theorem deliver_inv (h : Inv held s) : Inv held s.deliver := by
  unfold deliver
  split
  · exact h
  · rename_i r hr
    have hnext : Inv held { s with received := s.received + 1 } :=
      { h with call := fun c hc => (h.call c hc).keep rfl rfl rfl rfl }
    dsimp only
    split
    · exact hnext
    · rename_i seq operation result hheard
      split
      · rename_i hwait
        refine { hnext with
          call := fun c hc => (h.call c hc).keep rfl rfl rfl rfl
          reply := fun hok => ?_ }
        obtain ⟨rfl, rfl⟩ := Prod.mk.inj (Option.some.inj hok)
        split at hheard
        · obtain ⟨i, hi⟩ := heard_seal hheard
          exact ⟨i, seq, hwait, List.mem_filterMap.mpr ⟨r, List.mem_of_getElem? hr, hi⟩⟩
        · cases hheard
      · exact hnext

/-- the call is not concerned -/
theorem Inv.aside (h : Inv held s) {uploadCancel stop referenceMode : Bool} {modelDigest : Digest} {armEpoch : ℕ} :
    Inv held { s with
      uploadCancel := uploadCancel, stop := stop, referenceMode := referenceMode, modelDigest := modelDigest
      armEpoch := armEpoch } :=
  { h with call := fun c hc => (h.call c hc).keep rfl rfl rfl rfl }

theorem servo_loc (cfg : ServerConfig) (ids : SessionIds) (srv : Server) (env : RtEnv) :
    (srv.step cfg ids (.servo env)).loc = srv.loc := by
  rfl

/-- **Every step keeps the invariant.** -/
theorem inv_step {cfg : ServerConfig} {ids : SessionIds} (h : Inv held s) (e : ExchangeEvent)
    (hmono : ∀ u, held u → held' u) (hnow : ∀ u, (s.step cfg ids e).Holds u → held' u) :
    Inv held' (s.step cfg ids e) := by
  cases e with
  | call op session epoch => exact (enter_inv h).mono hmono
  | acquire i => exact (acquire_inv h i).mono hmono
  | advance ok expired => exact (advance_inv h ok expired).mono hmono
  | interrupt => exact h.aside.mono hmono
  | stop => exact h.aside.mono hmono
  | prepare b => exact (prepare_inv h b).mono hmono
  | transmit i ok => exact (transmit_inv h i ok).mono hmono
  | deliver => exact (deliver_inv h).mono hmono
  | negotiated digest => exact h.aside.mono hmono
  | epoch armEpoch => exact h.aside.mono hmono
  | control env => exact control_inv h hmono hnow
  | servo env => exact (quiet_inv h (servo_loc cfg ids s.srv env)).mono hmono
  | datagram e =>
    have hq : Inv held { s with srv := s.srv.step cfg ids (.datagram e) } := quiet_inv h rfl
    exact hq.mono hmono

/-! ## the return of `upload_reference` -/

/-- a step that returns no upload id -/
def Returns (s s' : Exchange) (u : Upload) : Prop := s'.results = s.results ++ [.uploaded u]

theorem returns_same {s' : Exchange} {u : Upload} (h : s'.results = s.results) : ¬ Returns s s' u := by
  intro hret
  unfold Returns at hret
  rw [h] at hret
  simp at hret

theorem returns_raised {s' : Exchange} {u : Upload} {op : Operation} {e : LinkError}
    (h : s'.results = s.results ++ [.raised op e]) : ¬ Returns s s' u := by
  intro hret
  have hlast := List.append_cancel_left (h.symm.trans hret)
  cases hlast

theorem enter_returns {cfg : ServerConfig} {op : Operation} {session epoch : Option ℕ} {u : Upload} :
    ¬ Returns s (s.enter cfg op session epoch) u := by
  unfold enter
  dsimp only
  split
  · exact returns_raised rfl
  · split
    · exact returns_raised rfl
    · split
      · split
        · exact returns_raised rfl
        · unfold beginUpload
          split
          · exact returns_same rfl
          · exact returns_raised rfl
      · exact returns_same rfl

theorem acquire_returns {i : ℕ} {u : Upload} : ¬ Returns s (s.acquire i) u := by
  unfold acquire
  split
  · dsimp only
    split
    · intro hret
      have hlast := List.append_cancel_left hret
      cases hlast
    · exact returns_same rfl
  · exact returns_same rfl

/-- the upload that returns has had the OK of its SEAL -/
theorem finish_returns (h : Inv held s) {c : Call} (hc : s.call = some c) {body : Body} {rest : List Body}
    (hframes : c.frames = body :: rest) {seq : ℕ} (hseq : c.stage.seq? = some seq)
    (hreply : s.reply = some (body.opcode, .ok)) {u : Upload} (hret : Returns s (s.finish c rest) u) :
    held u ∧ u ∈ s.newest ∧ Past u.id s.srv.loc.upload := by
  have hcall := h.call c hc
  revert hret
  unfold finish
  dsimp only
  split
  · exact fun hret => absurd hret (returns_same rfl)
  · cases hupload : c.upload with
    | none =>
      intro hret
      have hlast := List.append_cancel_left hret
      cases hlast
    | some v =>
      intro hret
      have hlast := List.append_cancel_left hret
      obtain rfl := Outcome.uploaded.inj (List.cons.inj hlast).1
      obtain ⟨hnewest, ⟨pre, p, hpre⟩, -⟩ := hcall.upload v hupload
      rw [hframes] at hpre
      have hbody : body = .referenceSeal p := by
        cases pre with
        | nil => exact (List.cons.inj hpre).1
        | cons x pre =>
          have hlen := congrArg List.length (List.cons.inj hpre).2
          simp at hlen
      rw [hbody] at hreply
      obtain ⟨i, q, hq, hi⟩ := h.reply hreply
      obtain ⟨hwait, -, hstart⟩ := hcall.seq seq hseq
      obtain rfl := Option.some.inj (hq.symm.trans hwait)
      obtain ⟨hheld, hpast⟩ := (h.oks _ hi).2 v hnewest (hstart v hupload)
      exact ⟨hheld, hnewest, hpast⟩

theorem advance_returns (h : Inv held s) {ok expired : Bool} {u : Upload}
    (hret : Returns s (s.advance ok expired) u) : held u ∧ u ∈ s.newest ∧ Past u.id s.srv.loc.upload := by
  revert hret
  have hraised {c : Call} {e : LinkError} {s' : Exchange} (hs : s'.results = s.results) :
      ¬ Returns s (s'.fail c e) u := by
    refine returns_raised (?_ : _ = s.results ++ [.raised c.operation e])
    rw [← hs]
    rfl
  unfold advance
  split
  · exact fun hret => absurd hret (returns_same rfl)
  · rename_i c hc
    split
    · exact fun hret => absurd hret (returns_same rfl)
    · rename_i body rest hframes
      cases hstage : c.stage with
      | start =>
        dsimp only
        split_ifs
        · exact fun hret => absurd hret (hraised rfl)
        · exact fun hret => absurd hret (hraised rfl)
        · exact fun hret => absurd hret (hraised rfl)
        · exact fun hret => absurd hret (returns_same rfl)
      | flag attempt seq =>
        dsimp only
        split_ifs
        · exact fun hret => absurd hret (hraised rfl)
        · exact fun hret => absurd hret (hraised rfl)
        · exact fun hret => absurd hret (returns_same rfl)
      | scope attempt seq =>
        dsimp only
        split_ifs
        · exact fun hret => absurd hret (hraised rfl)
        · exact fun hret => absurd hret (returns_same rfl)
      | send attempt seq =>
        dsimp only
        split_ifs
        · exact fun hret => absurd hret (returns_same rfl)
        · exact fun hret => absurd hret (hraised rfl)
      | wait attempt seq =>
        dsimp only
        split
        · rename_i operation result hreply
          split
          · exact fun hret => absurd hret (hraised rfl)
          · rename_i hok
            push Not at hok
            obtain ⟨rfl, rfl⟩ := hok
            exact finish_returns h hc hframes (congrArg Stage.seq? hstage) hreply
        · split_ifs
          · exact fun hret => absurd hret (hraised rfl)
          · exact fun hret => absurd hret (returns_same rfl)
          · exact fun hret => absurd hret (returns_same rfl)
          · exact fun hret => absurd hret (hraised rfl)

theorem step_returns {cfg : ServerConfig} {ids : SessionIds} (h : Inv held s) {e : ExchangeEvent} {u : Upload}
    (hret : Returns s (s.step cfg ids e) u) : held u ∧ u ∈ s.newest ∧ Past u.id s.srv.loc.upload := by
  cases e with
  | call op session epoch => exact absurd hret enter_returns
  | acquire i => exact absurd hret acquire_returns
  | advance ok expired => exact advance_returns h hret
  | interrupt => exact absurd hret (returns_same rfl)
  | stop => exact absurd hret (returns_same rfl)
  | prepare b =>
    refine absurd hret (returns_same ?_)
    show (s.prepare b).results = _
    unfold prepare
    split <;> rfl
  | transmit i ok =>
    refine absurd hret (returns_same ?_)
    show (s.transmit i ok).results = _
    unfold transmit
    split
    · rfl
    · dsimp only
      split <;> rfl
  | deliver =>
    refine absurd hret (returns_same ?_)
    show s.deliver.results = _
    unfold deliver
    split
    · rfl
    · dsimp only
      split
      · rfl
      · split <;> rfl
  | negotiated digest => exact absurd hret (returns_same rfl)
  | epoch armEpoch => exact absurd hret (returns_same rfl)
  | control env =>
    refine absurd hret (returns_same ?_)
    show (s.control cfg ids env).results = _
    unfold control
    split <;> rfl
  | servo env => exact absurd hret (returns_same rfl)
  | datagram e => exact absurd hret (returns_same rfl)

/-! ## the COMMIT that was not sent -/

/-- a request that was cancelled before dispatch is on no frame, and the numbers go on behind it -/
structure Unsent (s : Exchange) : Prop where
  seqs : ∀ f ∈ s.requests, f.seq ≤ s.referenceSeq
  call : ∀ c ∈ s.call, ∀ q ∈ c.stage.seq?, q = s.referenceSeq ∧ 0 < q ∧
    (c.stage = .flag 0 q → ∀ f ∈ s.requests, f.seq ≠ q)
  cancelled : ∀ op q, .raised op (.cancelledBeforeDispatch q) ∈ s.results → 0 < q ∧ q ≤ s.referenceSeq ∧
    (∀ f ∈ s.requests, f.seq ≠ q) ∧ ∀ c ∈ s.call, ∀ q' ∈ c.stage.seq?, q < q'

/-- the call ends, and no request was cancelled before dispatch -/
theorem Unsent.ends {s' : Exchange} (h : s.Unsent) (hreq : s'.requests = s.requests)
    (hseq : s'.referenceSeq = s.referenceSeq) (hcall : s'.call = none)
    (hres : ∀ op q, .raised op (.cancelledBeforeDispatch q) ∈ s'.results →
      .raised op (.cancelledBeforeDispatch q) ∈ s.results) : s'.Unsent := by
  refine ⟨?_, ?_, fun op q hq => ?_⟩
  · rw [hreq, hseq]
    exact h.seqs
  · rw [hcall]
    exact forall_none
  · obtain ⟨h1, h2, h3, -⟩ := h.cancelled op q (hres op q hq)
    rw [hreq, hseq, hcall]
    exact ⟨h1, h2, h3, forall_none⟩

/-- another outcome -/
theorem cancelled_snoc {l : List Outcome} {x : Outcome} {op : Operation} {q : ℕ}
    (hx : ∀ op q, x ≠ .raised op (.cancelledBeforeDispatch q))
    (h : .raised op (.cancelledBeforeDispatch q) ∈ l ++ [x]) : .raised op (.cancelledBeforeDispatch q) ∈ l := by
  rcases List.mem_append.mp h with h | h
  · exact h
  · exact absurd (List.mem_singleton.mp h).symm (hx op q)

theorem Unsent.fail (h : s.Unsent) (c : Call) {e : LinkError} (he : ∀ q, e ≠ .cancelledBeforeDispatch q) :
    (s.fail c e).Unsent := by
  refine h.ends rfl rfl rfl fun op q => cancelled_snoc ?_
  intro op q hx
  exact he q (Outcome.raised.inj hx).2

/-- nothing that the invariant is about -/
theorem Unsent.aside {s' : Exchange} (h : s.Unsent) (hreq : s'.requests = s.requests)
    (hseq : s'.referenceSeq = s.referenceSeq) (hcall : s'.call = s.call)
    (hres : ∀ op q, .raised op (.cancelledBeforeDispatch q) ∈ s'.results →
      .raised op (.cancelledBeforeDispatch q) ∈ s.results) : s'.Unsent := by
  refine ⟨?_, ?_, fun op q hq => ?_⟩
  · rw [hreq, hseq]
    exact h.seqs
  · rw [hreq, hseq, hcall]
    exact h.call
  · rw [hreq, hseq, hcall]
    exact h.cancelled op q (hres op q hq)

/-- a call takes the lock -/
theorem Unsent.starts {s' : Exchange} (h : s.Unsent) (hreq : s'.requests = s.requests)
    (hseq : s'.referenceSeq = s.referenceSeq) {c : Call} (hcall : s'.call = some c) (hc : c.stage = .start)
    (hres : s'.results = s.results) : s'.Unsent := by
  refine ⟨?_, ?_, fun op q hq => ?_⟩
  · rw [hreq, hseq]
    exact h.seqs
  · rw [hcall]
    rintro c' hc' q hq
    obtain rfl := Option.mem_some_iff.mp hc'
    rw [hc] at hq
    cases hq
  · obtain ⟨h1, h2, h3, -⟩ := h.cancelled op q (hres ▸ hq)
    rw [hreq, hseq, hcall]
    refine ⟨h1, h2, h3, fun c' hc' q' hq' => ?_⟩
    obtain rfl := Option.mem_some_iff.mp hc'
    rw [hc] at hq'
    cases hq'

theorem enter_unsent {cfg : ServerConfig} {op : Operation} {session epoch : Option ℕ} (h : s.Unsent) :
    (s.enter cfg op session epoch).Unsent := by
  have hraised {e : LinkError} (he : ∀ q, e ≠ .cancelledBeforeDispatch q) : (s.ends (.raised op e)).Unsent :=
    h.aside rfl rfl rfl fun op q => cancelled_snoc fun op q hx => he q (Outcome.raised.inj hx).2
  unfold enter
  dsimp only
  split
  · exact hraised nofun
  · split
    · exact hraised nofun
    · split
      · split
        · exact hraised nofun
        · unfold beginUpload
          split
          · exact h.starts rfl rfl rfl rfl rfl
          · exact h.aside rfl rfl rfl fun op q => cancelled_snoc nofun
      · exact h.aside rfl rfl rfl fun op q => id

theorem acquire_unsent (h : s.Unsent) (i : ℕ) : (s.acquire i).Unsent := by
  unfold acquire
  split
  · dsimp only
    split
    · exact h.aside rfl rfl rfl fun op q => cancelled_snoc nofun
    · exact h.starts rfl rfl rfl rfl rfl
  · exact h

theorem finish_unsent (h : s.Unsent) (c : Call) (rest : List Body) : (s.finish c rest).Unsent := by
  unfold finish
  dsimp only
  split
  · exact h.starts rfl rfl rfl rfl rfl
  · refine h.ends rfl rfl rfl fun op q => cancelled_snoc ?_
    cases c.upload <;> exact nofun

/-- the exchange goes on with its request -/
theorem stage_unsent (h : s.Unsent) {c : Call} (hc : s.call = some c) {q : ℕ} (hseq : c.stage.seq? = some q)
    (stage : Stage) (hstage : stage.seq? = some q) (hne : stage ≠ .flag 0 q)
    {new : List ControlPacket} (hnew : ∀ f ∈ new, f.seq = q) :
    Unsent { s with requests := s.requests ++ new, call := some { c with stage := stage } } := by
  obtain ⟨hlast, hpos, -⟩ := h.call c hc q hseq
  refine ⟨fun f hf => ?_, fun c' hc' q' hq' => ?_, fun op q' hq' => ?_⟩
  · rcases List.mem_append.mp hf with hf | hf
    · exact h.seqs f hf
    · exact (hnew f hf).trans_le hlast.le
  · obtain rfl := Option.mem_some_iff.mp hc'
    obtain rfl := Option.some.inj (hstage.symm.trans hq')
    exact ⟨hlast, hpos, fun he => absurd he hne⟩
  · obtain ⟨h1, h2, h3, h4⟩ := h.cancelled op q' hq'
    have hlt := h4 c hc q hseq
    refine ⟨h1, h2, fun f hf => ?_, fun c' hc' q'' hq'' => ?_⟩
    · rcases List.mem_append.mp hf with hf | hf
      · exact h3 f hf
      · rw [hnew f hf]
        exact Nat.ne_of_gt hlt
    · obtain rfl := Option.mem_some_iff.mp hc'
      obtain rfl := Option.some.inj (hstage.symm.trans hq'')
      exact hlt

theorem advance_unsent (h : s.Unsent) (ok expired : Bool) : (s.advance ok expired).Unsent := by
  have hstay {c : Call} (hc : s.call = some c) {q : ℕ} (hseq : c.stage.seq? = some q) (stage : Stage)
      (hstage : stage.seq? = some q) (hne : stage ≠ .flag 0 q) :
      Unsent { s with call := some { c with stage := stage } } := by
    have hnone := stage_unsent h hc hseq stage hstage hne (List.forall_mem_nil _)
    simpa only [List.append_nil] using hnone
  unfold advance
  split
  · exact h
  · rename_i c hc
    split
    · exact h
    · rename_i body rest hframes
      cases hstage : c.stage with
      | start =>
        dsimp only
        split
        · exact h.fail c nofun
        · have hnext : Unsent { s with referenceSeq := s.referenceSeq + 1, call := none } := by
            refine ⟨fun f hf => Nat.le_succ_of_le (h.seqs f hf), forall_none, fun op q hq => ?_⟩
            obtain ⟨h1, h2, h3, -⟩ := h.cancelled op q hq
            exact ⟨h1, Nat.le_succ_of_le h2, h3, forall_none⟩
          have hfailed {e : LinkError} (he : ∀ q, e ≠ .cancelledBeforeDispatch q) :
              (Exchange.fail { s with referenceSeq := s.referenceSeq + 1 } c e).Unsent :=
            (hnext.fail c he).aside rfl rfl rfl fun _ _ => id
          split
          · exact hfailed nofun
          · split
            · exact hfailed nofun
            · refine ⟨hnext.seqs, fun c' hc' q hq => ?_, fun op q hq => ?_⟩
              · obtain rfl := Option.mem_some_iff.mp hc'
                obtain rfl := Option.mem_some_iff.mp hq
                refine ⟨rfl, Nat.succ_pos _, fun _ f hf => ?_⟩
                exact Nat.ne_of_lt (Nat.lt_succ_of_le (h.seqs f hf))
              · obtain ⟨h1, h2, h3, -⟩ := h.cancelled op q hq
                refine ⟨h1, Nat.le_succ_of_le h2, h3, fun c' hc' q' hq' => ?_⟩
                obtain rfl := Option.mem_some_iff.mp hc'
                obtain rfl := Option.mem_some_iff.mp hq'
                exact Nat.lt_succ_of_le h2
      | flag attempt seq =>
        have hseq : c.stage.seq? = some seq := congrArg Stage.seq? hstage
        dsimp only
        split
        · split
          · rename_i hfirst
            obtain ⟨hlast, hpos, hfresh⟩ := h.call c hc seq hseq
            refine ⟨h.seqs, forall_none, fun op q hq => ?_⟩
            rcases List.mem_append.mp hq with hq | hq
            · obtain ⟨h1, h2, h3, -⟩ := h.cancelled op q hq
              exact ⟨h1, h2, h3, forall_none⟩
            · obtain ⟨-, he⟩ := Outcome.raised.inj (List.mem_singleton.mp hq)
              obtain rfl := LinkError.cancelledBeforeDispatch.inj he
              refine ⟨hpos, hlast.le, hfresh ?_, forall_none⟩
              rw [hstage, hfirst.1]
          · exact h.fail c nofun
        · exact hstay hc hseq (.scope attempt seq) rfl nofun
      | scope attempt seq =>
        dsimp only
        split
        · exact h.fail c nofun
        · exact hstay hc (congrArg Stage.seq? hstage) (.send attempt seq) rfl nofun
      | send attempt seq =>
        have hseq : c.stage.seq? = some seq := congrArg Stage.seq? hstage
        dsimp only
        split
        · refine stage_unsent h hc hseq (.wait attempt seq) rfl nofun (fun f hf => ?_)
          rw [List.mem_singleton.mp hf]
        · exact h.fail c nofun
      | wait attempt seq =>
        dsimp only
        split
        · split
          · exact h.fail c nofun
          · exact finish_unsent h c rest
        · split
          · exact h.fail c nofun
          · split
            · exact h
            · split
              · exact hstay hc (congrArg Stage.seq? hstage) (.flag 1 seq) rfl nofun
              · exact h.fail c nofun

theorem transmit_unsent (h : s.Unsent) (i : ℕ) (ok : Bool) : (s.transmit i ok).Unsent := by
  unfold transmit
  split
  · exact h
  · dsimp only
    split
    · refine ⟨fun f hf => ?_, fun c hc q hq => ?_, fun op q hq => ?_⟩
      · rcases List.mem_append.mp hf with hf | hf
        · exact h.seqs f hf
        · rw [List.mem_singleton.mp hf]
          exact Nat.zero_le _
      · obtain ⟨h1, h2, h3⟩ := h.call c hc q hq
        refine ⟨h1, h2, fun hstage f hf => ?_⟩
        rcases List.mem_append.mp hf with hf | hf
        · exact h3 hstage f hf
        · rw [List.mem_singleton.mp hf]
          exact h2.ne
      · obtain ⟨h1, h2, h3, h4⟩ := h.cancelled op q hq
        refine ⟨h1, h2, fun f hf => ?_, h4⟩
        rcases List.mem_append.mp hf with hf | hf
        · exact h3 f hf
        · rw [List.mem_singleton.mp hf]
          exact h1.ne
    · exact h.aside rfl rfl rfl fun _ _ => id

theorem unsent_step {cfg : ServerConfig} {ids : SessionIds} (h : s.Unsent) (e : ExchangeEvent) :
    (s.step cfg ids e).Unsent := by
  have hid (s' : Exchange) (hsame : s'.requests = s.requests ∧ s'.referenceSeq = s.referenceSeq ∧
      s'.call = s.call ∧ s'.results = s.results) : s'.Unsent :=
    h.aside hsame.1 hsame.2.1 hsame.2.2.1 fun _ _ hq => hsame.2.2.2 ▸ hq
  cases e with
  | call op session epoch => exact enter_unsent h
  | acquire i => exact acquire_unsent h i
  | advance ok expired => exact advance_unsent h ok expired
  | interrupt => exact hid _ ⟨rfl, rfl, rfl, rfl⟩
  | stop => exact hid _ ⟨rfl, rfl, rfl, rfl⟩
  | prepare b =>
    refine hid (s.prepare b) ?_
    unfold prepare
    split <;> exact ⟨rfl, rfl, rfl, rfl⟩
  | transmit i ok => exact transmit_unsent h i ok
  | deliver =>
    refine hid s.deliver ?_
    unfold deliver
    split
    · exact ⟨rfl, rfl, rfl, rfl⟩
    · dsimp only
      split
      · exact ⟨rfl, rfl, rfl, rfl⟩
      · split <;> exact ⟨rfl, rfl, rfl, rfl⟩
  | negotiated digest => exact hid _ ⟨rfl, rfl, rfl, rfl⟩
  | epoch armEpoch => exact hid _ ⟨rfl, rfl, rfl, rfl⟩
  | control env =>
    refine hid (s.control cfg ids env) ?_
    unfold control
    split <;> exact ⟨rfl, rfl, rfl, rfl⟩
  | servo env => exact hid _ ⟨rfl, rfl, rfl, rfl⟩
  | datagram e => exact hid _ ⟨rfl, rfl, rfl, rfl⟩

/-! ## runs -/

theorem inv_opened (h : s.Opened) : Inv held s ∧ s.Unsent := by
  obtain ⟨hreq, hreplies, hres, hreply, hcall, hnewest, hsending, hcand, hcommit⟩ := h
  have hreq' {P : ControlPacket → Prop} : ∀ f ∈ s.requests, P f := by
    rw [hreq]
    exact List.forall_mem_nil _
  have hnewest' {P : Upload → Prop} : ∀ u ∈ s.newest, P u := by
    rw [hnewest]
    exact forall_none
  have hcall' {P : Call → Prop} : ∀ c ∈ s.call, P c := by
    rw [hcall]
    exact forall_none
  have hdead {P : ReferenceUpload → Prop} : ∀ r ∈ s.srv.loc.upload, r.present = true → P r :=
    fun r hr hp => absurd ((hcand r hr).symm.trans hp) Bool.false_ne_true
  refine ⟨⟨hcommit, hdead, hdead, hnewest', hreq', hreq', hreq', hreq', ?_, hnewest', ?_, hcall', ?_⟩,
    hreq', hcall', ?_⟩
  · unfold oks
    rw [hreplies]
    exact List.forall_mem_nil _
  · rw [hsending]
    exact List.forall_mem_nil _
  · rw [hreply]
    exact nofun
  · rw [hres]
    exact nofun

/-- **Uploads, end to end.**  When the id of an upload is returned, the server has held the sealed candidate of
the upload, bit for bit, and holds it still if it has not given the candidate up; a request that was cancelled
before dispatch is on no frame of the connection. -/
theorem upload_exact (cfg : ServerConfig) (ids : SessionIds) {s : Exchange} (h0 : s.Opened) (es : List ExchangeEvent) :
    (∀ e u, Returns (run (step cfg ids) s es) (run (step cfg ids) s (es ++ [e])) u →
      Once (step cfg ids) (fun x => x.Holds u) s es ∧
      ∀ r ∈ (run (step cfg ids) s es).srv.loc.upload, r.present = true →
        r.candidate.identity.uploadId = u.id → (run (step cfg ids) s es).Holds u) ∧
    (∀ op q, .raised op (.cancelledBeforeDispatch q) ∈ (run (step cfg ids) s es).results →
      ∀ f ∈ (run (step cfg ids) s es).requests, f.seq ≠ q) := by
  have hinv : Inv (fun u => Once (step cfg ids) (fun x => x.Holds u) s es) (run (step cfg ids) s es) := by
    refine invariant_hist (C := fun _ _ => True)
      (I := fun es x => Inv (fun u => Once (step cfg ids) (fun x => x.Holds u) s es) x) (inv_opened h0).1 ?_
      (along_of_forall (fun _ _ => trivial) es)
    intro es e _ _ hx
    refine inv_step hx e (fun u hu => hu.snoc e) fun u hu => Once.now ?_
    rw [run_snoc]
    exact hu
  have hunsent : (run (step cfg ids) s es).Unsent :=
    invariant (C := fun _ _ => True) (@inv_opened (fun _ => True) _ h0).2 (fun _ e _ hx => unsent_step hx e)
      (along_of_forall (fun _ _ => trivial) es)
  refine ⟨fun e u hret => ?_, fun op q hq => (hunsent.cancelled op q hq).2.2.1⟩
  rw [run_snoc] at hret
  obtain ⟨hheld, hnewest, r, hr, -, hsealed⟩ := step_returns hinv hret
  refine ⟨hheld, fun r' hr' hp hid => ?_⟩
  obtain rfl := Option.mem_unique hr hr'
  have hpart := hinv.candidate u hnewest r hr hp hid
  have hs := hsealed hp hid
  exact ⟨r, hr, hp, hs, hpart.identity, hpart.curve hs⟩

/-! ## one upload -/

/-- from 0 to 1 in one second -/
def line : Trajectory where
  times := [.zero, ⟨0x3FF0000000000000⟩]
  positions := [[.zero], [⟨0x3FF0000000000000⟩]]

/-- a server of one joint; its digest is that of `line.body` -/
def lineServer : ServerConfig where
  n := 1
  holdNs := 100000000
  faultNs := 1000000000
  supportsReference := true
  groupEnabled := false
  groupMember := 0
  groupMembers := 1
  groupMaxAgeNs := 0
  groupMinLeadNs := 0
  jointOrderHash := 3
  instanceId := "arm"
  modelId := ""
  capabilities := 0
  setupFailed := none
  sha256 _ := 0xb5b210e27eb8e7b780cfc48a2b28f4447b162abe4b90f7b5b35a47d4408267c2

/-- an armed session in reference mode -/
def armedSession : Exchange where
  srv :=
    { pub := { sessionId := 7, claimOk := true, referenceSession := 7, armed := true, armGen := 1 }
      loc := { session := 7, upload := some { session := 7, joints := 3, n := 1, model := 9, epoch := 1 } }
      pc := .recv }
  n := 1
  jointOrderHash := 3
  sessionId := 7
  armEpoch := 1
  referenceMode := true
  modelDigest := 9

theorem opened_armedSession : armedSession.Opened := by
  refine ⟨rfl, rfl, rfl, rfl, rfl, rfl, rfl, fun r hr => ?_, by decide⟩
  obtain rfl := Option.mem_some_iff.mp hr
  rfl

/-- a frame of the exchange, and the control thread's answer to it -/
def roundOfExchange : List ExchangeEvent :=
  List.replicate 4 (.advance true false) ++ .control { frame := some {} } :: List.replicate 3 (.control {})

/-- the upload of the line -/
def uploadLine : List ExchangeEvent :=
  [.call (.upload { trajectory := line, referenceId := 5 }) none none] ++ roundOfExchange ++
    [.deliver, .advance true false] ++ roundOfExchange ++ [.deliver, .advance true false] ++ roundOfExchange ++ [.deliver]

/-- the upload's last step returns its id -/
def returnedId (s s' : Exchange) : Option Upload :=
  match s.results, s'.results with
  | [], [.uploaded u] => some u
  | _, _ => none

theorem returns_of_returnedId {s s' : Exchange} {u : Upload} (h : returnedId s s' = some u) : Returns s s' u := by
  unfold returnedId at h
  split at h
  · rename_i h1 h2
    obtain rfl := Option.some.inj h
    unfold Returns
    rw [h1, h2]
    rfl
  · cases h

/-- nothing came in between -/
theorem upload_exact_line : ∃ u, Once (step lineServer default) (fun x => x.Holds u) armedSession uploadLine := by
  have hret : (returnedId (run (step lineServer default) armedSession uploadLine)
      (run (step lineServer default) armedSession (uploadLine ++ [.advance true false]))).isSome = true := by
    decide +kernel
  obtain ⟨u, hu⟩ := Option.isSome_iff_exists.mp hret
  exact ⟨u, ((upload_exact lineServer default opened_armedSession uploadLine).1 _ u (returns_of_returnedId hu)).1⟩

/-- a DISARM of another thread is served between the SEAL's answer and the return -/
def disarmedLine : List ExchangeEvent :=
  uploadLine ++ [.prepare .disarm, .transmit 0 true, .control { frame := some {} }]

theorem disarmed_returned : ¬ ∀ (cfg : ServerConfig) (ids : SessionIds) (s : Exchange), s.Opened →
    ∀ (es : List ExchangeEvent) (e : ExchangeEvent) (u : Upload),
      Returns (run (step cfg ids) s es) (run (step cfg ids) s (es ++ [e])) u →
      (run (step cfg ids) s (es ++ [e])).Holds u := by
  intro h
  have hret : (returnedId (run (step lineServer default) armedSession disarmedLine)
      (run (step lineServer default) armedSession (disarmedLine ++ [.advance true false]))).isSome = true := by
    decide +kernel
  have hgone : (run (step lineServer default) armedSession
      (disarmedLine ++ [.advance true false])).srv.loc.upload.all (!·.present) = true := by decide +kernel
  obtain ⟨u, hu⟩ := Option.isSome_iff_exists.mp hret
  obtain ⟨r, hr, hp, -⟩ := h lineServer default armedSession opened_armedSession disarmedLine (.advance true false) u
    (returns_of_returnedId hu)
  rw [Option.mem_def.mp hr] at hgone
  simp [hp] at hgone

end Exchange
end ArmControl.RemoteRt
