/-
# Transactions return causal snapshots (`gr`)

When a client asks for a transaction, the time up to which it reads is not earlier than anything
that the client depends on (`gr_asked_bound`); and everything that a version depends on is earlier
than the version.  So what the client knew, what the transaction returns and all that these depend
on lies within the time of the snapshot, and a slice misses none of it (`gr_slice_complete`): of
every key the transaction returns a version that is at least as late as all of these, unless the
owner of the key has discarded them (`gr_rotx_causal`).

It does not matter when a version is accepted; that may be after the slices were read.
-/
import CCSim.CompleteReads

namespace CCSim

variable {c : Cluster}

/-! ## 1. What a snapshot has to show -/

/-- A client had got to know the version in `past`, or it is one of those that are read, or one of
these depends on it. -/
def PutView.CausalPast {E σ κ O : Type} (view : PutView c E σ κ O)
    (h past : List (Act (ServerId c) (ClientId c) E σ κ)) (k : ClientId c)
    (reads : List (Version (Replica c))) (v : Version (Replica c)) : Prop :=
  ∃ w, (v = w ∨ view.Before h v w) ∧ (w ∈ reads ∨ ∃ b ∈ past, w ∈ view.learned k b)

/-- The versions that slices return. -/
def grReadVersions (slices : List (GrSliceResponse c)) : List (GrVersion c) :=
  slices.flatMap fun slice => readVersion slice.key slice.read

/-! ## 2. The time of a request -/

section Runs

variable {setup : Setup c (GrEvent c)} {Q : GrAct c → Prop} {M : GrMail c} {h : List (GrAct c)}

/-- A client asks for a transaction with the time that it depends on. -/
theorem grRotxAsks_dependencyTime {k : ClientId c} {t : ℚ} {d : Decision} {e : GrEvent c}
    {st : GrClientState c} {r : GrClientState c × List (GrOut c)}
    (hclient : grClientProcessEvent k t d st e = some r) {request : GrGetRotxRequest c}
    (hmem : request ∈ grRotxAsks k (.client k t e st r)) :
    request.dependencyTime = r.1.dependencyTime := by
  obtain ⟨st', -, -, hasks⟩ := grClientProcessEvent_asks hclient
  rw [grRotxAsks, if_pos rfl] at hmem
  obtain ⟨o, ho, hsome⟩ := List.mem_filterMap.mp hmem
  split at hsome
  · cases hsome
    cases hasks _ (List.mem_map_of_mem ho)
    rfl
  · cases hsome

/-- A client that is answered has no transaction that was not answered. -/
theorem gr_answered_idle (hr : Mail.Run (grProgram c) Q (grWorld setup).config.mail M h)
    {k : ClientId c} {e : GrEvent c} {mail : Multiset ((ServerId c ⊕ ClientId c) × GrEvent c)}
    (hev : M.events = (.inr k, e) ::ₘ mail) {time : ℚ} (he : e.answerTime = some time) :
    grAsked k h = none := by
  have hone : grRefs (.inr k, e) (.client k) = 1 := by
    cases e <;> cases he <;> exact GrRef.one_self _
  have halone := gr_answered hr hev hone
  have hzero : grPieces (.inr k, e) (.client k) = 0 := by
    cases e <;> cases he <;> rfl
  have hpending := (gr_account hr k).pending
  rw [hev, Multiset.map_cons, Multiset.sum_cons, hzero, zero_add, halone.pieces] at hpending
  generalize grAsked k h = asked at hpending ⊢
  cases hpending with
  | idle => rfl
  | sent _ hpieces => exact absurd hpieces.symm (Multiset.singleton_ne_zero _)
  | held hclient _ hget hfor => exact absurd (hfor.client.trans hclient) (halone.rotx _ _ _ hget)

/-- The transaction that a client waits for depends on all that the client depends on. -/
theorem gr_asked_bound (hr : Mail.Run (grProgram c) Q (grWorld setup).config.mail M h)
    (k : ClientId c) : ∀ request, grAsked k h = some request →
      (M.client k).dependencyTime ≤ request.dependencyTime := by
  induction hr with
  | nil => rintro request ⟨⟩
  | @cons M M' h a hrun hstep _ ih =>
    intro request hasked
    cases hstep with
    | wait => exact ih request hasked
    | @serve s t e r mail hev ht hserve =>
      by_cases hanswers : grRotxAnswersTo k r.outs = []
      · have hsame : grAsked k (.server s t e (M.server s) r :: h) = grAsked k h :=
          grAsked_of_silent hanswers
        exact ih request (hsame ▸ hasked)
      · have hnone : grAsked k (.server s t e (M.server s) r :: h) = none :=
          pending_of_answers rfl (by simp [grRotxAnswers, hanswers])
        cases hnone.symm.trans hasked
    | @client k' t decision e r mail hev ht hclient =>
      dsimp only
      by_cases hk : k' = k
      · subst hk
        rw [Function.update_self]
        cases hhead : (grRotxAsks k' (.client k' t e (M.client k') r)).head? with
        | some request' =>
          have hasked' : grAsked k' (.client k' t e (M.client k') r :: h) = some request' :=
            pending_of_asks hhead
          cases hasked'.symm.trans hasked
          exact (grRotxAsks_dependencyTime hclient (List.mem_of_mem_head? hhead)).ge
        | none =>
          have hsame : grAsked k' (.client k' t e (M.client k') r :: h) = grAsked k' h :=
            pending_of_neither hhead rfl
          have hasked : grAsked k' h = some request := hsame ▸ hasked
          rw [grClientProcessEvent_bound hclient]
          cases hanswer : e.answerTime with
          | none => exact ih request hasked
          | some time =>
            cases hasked.symm.trans (gr_answered_idle hrun hev hanswer)
      · have hsame : grAsked k (.client k' t e (M.client k') r :: h) = grAsked k h :=
          pending_of_neither (by simp [grRotxAsks, hk]) rfl
        rw [Function.update_of_ne (Ne.symm hk)]
        exact ih request (hsame ▸ hasked)

end Runs

/-! ## 3. Every transaction of a run -/

section Answers

variable {setup : Setup c (GrEvent c)} {W : GrWorld c} {h later past : List (GrAct c)} {a : GrAct c}
  {k : ClientId c} {request : GrGetRotxRequest c}

/-- What a client had got to know is not later than what its transaction depends on. -/
theorem gr_learned_le (htimely : World.TimelyRun (grProgram c) setup.conf (grWorld setup) W h)
    (hh : h = later ++ a :: past) (hasked : grAsked k past = some request) {b : GrAct c}
    (hb : b ∈ past) {v : GrVersion c} (hv : v ∈ (grPutView c).learned k b) :
    v.updateTime ≤ request.dependencyTime := by
  obtain ⟨T, hT, -⟩ := htimely.timed
  have hview := (grWorld setup).timed_timed.1.symm ▸ grPutView_known setup
  obtain ⟨N, N', hrun, -⟩ := hT.before hh
  have hmail := hrun.mail
  rw [(grWorld setup).timed_timed.1] at hmail
  calc v.updateTime ≤ (N.client k).dependencyTime := (hrun.causal hview).learned k b hb v hv
    _ ≤ request.dependencyTime := gr_asked_bound hmail k request hasked

/-- A slice returns nothing that is later than its snapshot. -/
theorem GrRead.version_le {s : ServerId c} {slice : GrSliceResponse c} (hread : GrRead h s slice)
    {v : GrVersion c} (hv : v ∈ readVersion slice.key slice.read) :
    v.updateTime ≤ slice.snapshotTime := by
  obtain ⟨t, e, st, r, -, -, hvalue⟩ := hread.owner
  cases hitem : slice.read with
  | none =>
    rw [hitem] at hv
    cases hv
  | some item =>
    rw [hitem] at hv hvalue
    cases List.mem_singleton.mp hv
    have hvisible : grIsValueVisibleSnapshot slice.snapshotTime item = true :=
      List.find?_some hvalue.symm
    exact of_decide_eq_true hvisible

/-- What a snapshot has to show is not later than its time. -/
theorem GrAnswered.causalPast_le {response : GrGetRotxResponse c} {time : ℚ}
    {slices : List (GrSliceResponse c)} (hanswered : GrAnswered (a :: past) k request response time
      slices) (htimely : World.TimelyRun (grProgram c) setup.conf (grWorld setup) W h)
    (hh : h = later ++ a :: past) (hasked : grAsked k past = some request) {v : GrVersion c}
    (hv : (grPutView c).CausalPast h past k (grReadVersions slices) v) : v.updateTime ≤ time := by
  obtain ⟨w, hbefore, hw⟩ := hv
  have hle : v.updateTime ≤ w.updateTime := by
    rcases hbefore with rfl | hbefore
    · exact le_rfl
    · exact ((grPutView_known setup).before_lt htimely hbefore).le
  refine hle.trans ?_
  rcases hw with hw | ⟨b, hb, hw⟩
  · obtain ⟨slice, hslice, hw⟩ := List.mem_flatMap.mp hw
    rw [← hanswered.times slice hslice]
    exact (hanswered.read slice hslice).version_le hw
  · exact (gr_learned_le htimely hh hasked hb hw).trans hanswered.dependencyTime

end Answers

/-- **Transactions return causal snapshots.**  The answer to a transaction is put together from the
slices that the owners of its keys have read at one time.  Take any version of one of the keys, that
is accepted in the run, and that the client had got to know, or that is returned for the key, or
that one of the versions that the client knew or is returned depends on: then the version that is
returned is at least as late, unless the owner of the key has discarded the other. -/
theorem gr_rotx_causal (setup : Setup c (GrEvent c)) (W : GrWorld c) (h : List (GrAct c))
    (hrun : World.Run (grProgram c) setup.conf GrStable (grWorld setup) W h)
    (htimely : World.TimelyRun (grProgram c) setup.conf (grWorld setup) W h)
    (later past : List (GrAct c)) (a : GrAct c) (hh : h = later ++ a :: past) (k : ClientId c)
    (response : GrGetRotxResponse c) (hmem : response ∈ grRotxAnswers k a) :
    ∃ request time slices, grAsked k past = some request ∧
      GrAnswered (a :: past) k request response time slices ∧ ∀ slice ∈ slices, ∀ j item,
        (grReplicating c).Accepted h (j, (lpidForKey k.server slice.key).2) (slice.key, item) →
        (grPutView c).CausalPast h past k (grReadVersions slices) (item.version slice.key) →
          item.updateTime ≤ slice.updateTime ∨
            (grReplicating c).Discarded past (lpidForKey k.server slice.key) (slice.key, item) := by
  obtain ⟨-, -, request, time, id, hasked, hanswered⟩ := gr_rotx_answered hrun.config hh hmem
  refine ⟨request, time, _, hasked, hanswered, fun slice hslice j item haccepted hpast => ?_⟩
  have hle : item.updateTime ≤ time := hanswered.causalPast_le htimely hh hasked hpast
  have hread := hanswered.read slice hslice
  obtain ⟨t, e, st, r, howner, hout, -⟩ := hread.owner
  obtain ⟨mid, before, hmid⟩ := List.append_of_mem howner
  have hh' : h = (later ++ mid) ++ .server (lpidForKey k.server slice.key) t e st r :: before := by
    rw [hh, hmid, List.append_assoc]
  refine (gr_slice_complete hrun.config hh' hout j item haccepted ?_).imp_right fun hd => ?_
  · rw [hanswered.times slice hslice]
    exact hle
  · refine hd.mono ?_
    cases mid with
    | nil =>
      rw [(List.cons.inj hmid).2]
      exact List.Subset.refl _
    | cons b mid =>
      rw [(List.cons.inj hmid).2]
      exact List.Subset.trans (List.subset_cons_self _ _) (List.subset_append_right _ _)

/-- A replay whose handler calls pass the test and whose choices are timely. -/
theorem World.Run.of_timely_replay {S K E σ κ χ : Type} [Fintype S] [DecidableEq S] [DecidableEq K]
    (P : Program S K E σ κ χ) (conf : SimConfig S K E) (W₀ : World S K E σ κ) {C : Cond S K E σ κ}
    {test : CallTest S K E σ κ} (htest : C.TestedBy test) (cs : List (Choice χ))
    (hc : ∀ c ∈ cs, 0 < c.draws.sum + c.last)
    (seen : World S K E σ κ × List (Act S K E σ κ) → Bool)
    (hr : (World.replay P conf test cs W₀ []).any seen = true) :
    ∃ W h, World.Run P conf C W₀ W h ∧ World.TimelyRun P conf W₀ W h ∧ seen (W, h) = true := by
  obtain ⟨x, hx, hseen⟩ := (Option.any_eq_true _ _).mp hr
  exact ⟨x.1, x.2, World.Run.nil.replay htest hx, World.TimelyRun.nil.replay hc hx, hseen⟩

theorem grBriskRun_timely : ∀ c ∈ grBriskRun, 0 < c.draws.sum + c.last :=
  choices_timely _ _

/-- The transaction returns both values, and the version of key 1 depends on that of key 0. -/
theorem gr_rotx_causal_brisk :
    ∃ W h, World.Run (grProgram brisk) (briskSetup _).conf GrStable (grWorld (briskSetup _)) W h ∧
      World.TimelyRun (grProgram brisk) (briskSetup _).conf (grWorld (briskSetup _)) W h ∧
      (∃ v w, (grPutView brisk).Before h v w ∧ v.key = 0 ∧ w.key = 1) ∧
      ∃ later a past response, h = later ++ a :: past ∧
        response ∈ grRotxAnswers (clientAt brisk 0 0 0) a ∧ response.values = [7, 8] ∧
        ∃ request time slices, grAsked (clientAt brisk 0 0 0) past = some request ∧
          GrAnswered (a :: past) (clientAt brisk 0 0 0) request response time slices ∧
          ∀ slice ∈ slices, ∀ j item,
            (grReplicating brisk).Accepted h
              (j, (lpidForKey (clientAt brisk 0 0 0).server slice.key).2) (slice.key, item) →
            (grPutView brisk).CausalPast h past (clientAt brisk 0 0 0) (grReadVersions slices)
              (item.version slice.key) →
              item.updateTime ≤ slice.updateTime ∨ (grReplicating brisk).Discarded past
                (lpidForKey (clientAt brisk 0 0 0).server slice.key) (slice.key, item) := by
  obtain ⟨W, h, hrun, htimely, hseen⟩ := World.Run.of_timely_replay (grProgram brisk)
    (briskSetup _).conf (grWorld (briskSetup _)) grStable_tested grBriskRun grBriskRun_timely
    grBriskSeen grBriskRun_seen
  obtain ⟨hdepends, hanswers⟩ := Bool.and_eq_true_iff.mp (Bool.and_eq_true_iff.mp hseen).2
  obtain ⟨⟨v, w⟩, hvw, hkeys⟩ := List.any_eq_true.mp hdepends
  obtain ⟨a, ha, hanswer⟩ := List.any_eq_true.mp hanswers
  obtain ⟨response, hmem, hvalues⟩ := List.any_eq_true.mp hanswer
  obtain ⟨later, past, hh⟩ := List.append_of_mem ha
  refine ⟨W, h, hrun, htimely, ⟨v, w, PutView.before_of_mem hvw, of_decide_eq_true hkeys⟩, later, a,
    past, response, hh, hmem, of_decide_eq_true hvalues, ?_⟩
  exact gr_rotx_causal (briskSetup _) W h hrun htimely later past a hh _ response hmem

end CCSim
