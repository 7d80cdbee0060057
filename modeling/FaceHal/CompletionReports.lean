import FaceHal.EnrollmentFrames

/-!
# Reports that an enrolment is complete

A client takes `onEnrollmentProgress` with no frames remaining for the end of its enrolment.
A worker posts it after a face was saved. It also posts what it reads from the frame count
after the engine has asked for more frames, and it reads the count without a lock. The count is
five only while some worker is in its call of `enroll` after it has raised the count, and as a
session has one worker, that is a worker of another session. That call may save a face, or ask
for more frames when the count was reset before its test. So a report of no remaining frames
comes from a face that was saved, or from a count that was read during such a call.
-/
namespace FaceHal
open Program

/-- A worker that is going to report that the enrolment of the face is complete. -/
def WorkerStage.announces (faceId : Int32) : WorkerStage → Prop
  | .clearEnrolling f | .stopAfterEnrollment f => f = faceId
  | .post callback => callback = .onEnrollmentProgress faceId 0
  | _ => False

/-- The completion of the enrolment was reported, or is going to be. -/
def Session.Announces (s : Session) (faceId : Int32) : Prop :=
  (∃ p ∈ s.posted, p.callback = .onEnrollmentProgress faceId 0) ∨
    ∃ w ∈ s.workers, w.stage.announces faceId

/-- The engine completed the enrolment, or the count that the worker reads leaves none. -/
def WorkerStage.concludes (faceId : Int32) (enrollFrameCount : Int32) (reply : EngineReply) :
    WorkerStage → Prop
  | .enroll => reply.res = VendorCode.faceOk ∧ reply.faceId = faceId
  | .readFrameCount f =>
      f = faceId ∧ FaceEngine.enrollRequiredGoodFrames - enrollFrameCount = 0
  | _ => False

section session
variable {v v' : SessionView} {faceId : Int32} {w : Worker} {reply : EngineReply}

theorem not_announces_of_answer {callback : Callback} (h : callback.isAnswer = true) :
    callback ≠ .onEnrollmentProgress faceId 0 := by
  rintro rfl
  cases h

theorem posted_of_step {l : SessionLabel} (h : sessionStep v l v')
    (hl : ∀ k reply, l ≠ .worker k reply) {p : Post} (hp : p ∈ v'.session.posted)
    (hcallback : p.callback = .onEnrollmentProgress faceId 0) : p ∈ v.session.posted := by
  have happend : ∀ {callback : Callback} {operation frameOperation : Option ℕ}
      {posted : List Post}, callback ≠ .onEnrollmentProgress faceId 0 →
      p ∈ posted ++ [⟨callback, operation, frameOperation⟩] → p ∈ posted := by
    intro callback operation frameOperation posted hne hmem
    rcases List.mem_append.mp hmem with hmem | hmem
    · exact hmem
    · obtain rfl := List.mem_singleton.mp hmem
      exact absurd hcallback hne
  have hcanceled : ∀ {t : Session}, v.session.Canceled t → p ∈ t.posted → p ∈ v.session.posted := by
    intro t hc hmem
    rcases hc.posted with ⟨-, heq⟩ | ⟨-, heq⟩
    · rwa [heq] at hmem
    · rw [heq] at hmem
      exact happend (by simp) hmem
  cases effect_of_step h with
  | started _ _ _ heq => rwa [heq] at hp
  | failed code _ _ _ heq =>
      rw [heq] at hp
      exact happend (by simp) hp
  | canceled _ hc => exact hcanceled hc hp
  | closed u hc heq =>
      rw [heq] at hp
      exact hcanceled hc (happend (by simp) hp)
  | answered callback _ hanswer _ heq =>
      rw [heq] at hp
      exact happend (not_announces_of_answer hanswer) hp
  | arrived heq => rwa [heq] at hp
  | dropped _ _ heq => rwa [heq] at hp
  | claimed _ _ _ _ heq => rwa [heq] at hp
  | worker k w reply _ _ => exact absurd rfl (hl k reply)
  | alike ha => rwa [ha.posted] at hp

theorem announces_goto {u : SessionView} {stage : WorkerStage} (hw : u.session.workers = [w])
    (hposted : u.session.posted = v.session.posted)
    (h : (u.goto 0 w stage).session.Announces faceId) :
    v.session.Announces faceId ∨ stage.announces faceId := by
  rcases h with ⟨p, hp, hcallback⟩ | ⟨w', hw', hstage⟩
  · have hp' : p ∈ u.session.posted := hp
    rw [hposted] at hp'
    exact .inl (.inl ⟨p, hp', hcallback⟩)
  · rw [stage_goto hw hw'] at hstage
    exact .inr hstage

theorem announces_quiet {u : SessionView} {stage : WorkerStage} (hw : u.session.workers = [w])
    (hposted : u.session.posted = v.session.posted) (hquiet : ¬ stage.announces faceId)
    (h : (u.goto 0 w stage).session.Announces faceId) : v.session.Announces faceId :=
  (announces_goto hw hposted h).resolve_right hquiet

theorem announces_enter {stage : WorkerStage} {kind : OperationKind}
    (hw : v.session.workers = [w]) (hquiet : ¬ stage.announces faceId)
    (h : (v.enter 0 w stage kind).session.Announces faceId) : v.session.Announces faceId := by
  rcases h with ⟨p, hp, hcallback⟩ | ⟨w', hw', hstage⟩
  · exact .inl ⟨p, hp, hcallback⟩
  · rw [enter_eq hw hw'] at hstage
    exact absurd hstage hquiet

theorem announces_of_workerStep (hw : v.session.workers = [w])
    (h : (v.workerStep 0 w reply).session.Announces faceId) :
    v.session.Announces faceId ∨ w.stage.concludes faceId v.engine.enrollFrameCount reply := by
  have hmem : w ∈ v.session.workers := by
    rw [hw]
    exact List.mem_singleton_self w
  have hstays : ∀ {stage}, w.stage = stage → stage.announces faceId →
      v.session.Announces faceId := fun hstage hannounces =>
    .inr ⟨w, hmem, hstage ▸ hannounces⟩
  unfold SessionView.workerStep at h
  cases hstage : w.stage with
  | testCancelled =>
      rw [hstage] at h
      dsimp only at h
      split_ifs at h
      · exact .inl (announces_quiet hw rfl id h)
      · exact .inl (announces_quiet hw rfl id h)
  | testAuthenticating | testDetecting | testEnrolling =>
      rw [hstage] at h
      dsimp only at h
      split_ifs at h
      · exact .inl (announces_enter hw id h)
      · exact .inl (announces_quiet hw rfl id h)
  | authenticate =>
      rw [hstage] at h
      dsimp only at h
      split_ifs at h
      · exact .inl (announces_quiet hw rfl id h)
      · exact .inl (announces_quiet hw rfl (by rintro ⟨⟩) h)
      · exact .inl (announces_quiet hw rfl (by rintro ⟨⟩) h)
      · exact .inl (announces_quiet hw rfl id h)
  | analyze =>
      rw [hstage] at h
      dsimp only at h
      split_ifs at h
      · exact .inl (announces_quiet hw rfl id h)
      · exact .inl (announces_quiet hw rfl id h)
  | enroll =>
      rw [hstage] at h
      dsimp only at h
      split_ifs at h with hok hkeep
      · exact (announces_goto hw rfl h).imp_right fun hface => ⟨hok, hface⟩
      · exact .inl (announces_quiet hw rfl id h)
      · exact .inl (announces_quiet hw rfl (by rintro ⟨⟩) h)
  | clearAuthenticating f | clearReason f | stopAfterMatch f | clearDetecting =>
      rw [hstage] at h
      exact .inl (announces_quiet hw rfl id h)
  | readChallenge f | stopAfterDetection =>
      rw [hstage] at h
      exact .inl (announces_quiet hw rfl (by rintro ⟨⟩) h)
  | readFrameCount f =>
      rw [hstage] at h
      refine (announces_goto hw rfl h).imp_right fun hface => ?_
      obtain ⟨rfl, hzero⟩ := Callback.onEnrollmentProgress.inj hface
      exact ⟨rfl, hzero⟩
  | clearEnrolling f =>
      rw [hstage] at h
      exact .inl ((announces_goto hw rfl h).elim id fun hface => hstays hstage hface)
  | stopAfterEnrollment f =>
      rw [hstage] at h
      refine .inl ((announces_goto hw rfl h).elim id fun hface => hstays hstage ?_)
      exact (Callback.onEnrollmentProgress.inj hface).1
  | post callback =>
      rw [hstage] at h
      refine .inl ?_
      rcases h with ⟨p, hp, hcallback⟩ | ⟨w', hw', hrelease⟩
      · rcases List.mem_append.mp (show p ∈ v.session.posted ++ [_] from hp) with hp | hp
        · exact .inl ⟨p, hp, hcallback⟩
        · obtain rfl := List.mem_singleton.mp hp
          exact hstays hstage hcallback
      · rw [stage_goto (v := v.postCallback callback w.operation w.frameOperation) hw hw']
          at hrelease
        exact hrelease.elim
  | release =>
      rw [hstage] at h
      refine .inl ?_
      rcases h with ⟨p, hp, hcallback⟩ | ⟨w', hw', -⟩
      · exact .inl ⟨p, hp, hcallback⟩
      · have hnone : w' ∈ v.session.workers.eraseIdx 0 := hw'
        rw [hw] at hnone
        cases hnone

/-- What makes a session announce that the enrolment of a face is complete. -/
theorem announces_of_step {l : SessionLabel} (hclaimed : v.session.Claimed)
    (h : sessionStep v l v') (hannounces : v'.session.Announces faceId) :
    v.session.Announces faceId ∨ ∃ k reply w, l = .worker k reply ∧
      v.session.workers[k]? = some w ∧ w.stage.concludes faceId v.engine.enrollFrameCount reply := by
  by_cases hl : ∃ k reply, l = .worker k reply
  · obtain ⟨k, reply, rfl⟩ := hl
    obtain ⟨w, hk, rfl⟩ := Option.map_eq_some_iff.mp h
    obtain ⟨rfl, hw⟩ := hclaimed.only hk
    exact (announces_of_workerStep hw hannounces).imp_right fun hc => ⟨0, reply, w, rfl, hk, hc⟩
  · push Not at hl
    refine .inl ?_
    rcases hannounces with ⟨p, hp, hcallback⟩ | ⟨w, hw, hstage⟩
    · exact .inl ⟨p, posted_of_step h hl hp hcallback, hcallback⟩
    · rcases workers_of_step hclaimed h hl with hsame | ⟨-, frameOperation, hnew⟩
      · exact .inr ⟨w, hsame ▸ hw, hstage⟩
      · rw [hnew, List.mem_singleton] at hw
        rw [hw] at hstage
        exact hstage.elim

theorem not_announces_create {userId : Int32} : ¬ (Session.create userId).Announces faceId := by
  rintro (⟨p, hp, -⟩ | ⟨w, hw, -⟩)
  · cases hp
  · cases hw

end session

namespace EnrollStub

/-- The worker of the session has raised the count in its call of `enroll`, which has not
asked for more frames. -/
def PastCount (v : EnrollStub) (i : ℕ) : Prop :=
  (v.place i = .testsCount ∨ v.place i = .saves) ∧ ∃ k, v.isEnrolling i k = true

/-- The engine's count asks for no more frames only while a worker is past it. -/
structure Counted (v : EnrollStub) : Prop where
  sound : ∀ i s, v.hal.live i = some s → s.Sound
  past : ¬ v.hal.engine.enrollFrameCount < FaceEngine.enrollRequiredGoodFrames →
    ∃ j, v.PastCount j

section step
variable {E : Environment StorageI FileSystem} {v v' : EnrollStub} {l : EnrollLabel}

theorem enrollRun_of_step {i k : ℕ} {reply : EngineReply} {s : Session} {w : Worker}
    (hstep : enrollStep E v (.hal (.session i (.worker k reply))) v')
    (hs : v.hal.live i = some s) (hk : s.workers[k]? = some w) (hstage : w.stage = .enroll) :
    v.EnrollRun E i s.userId reply v'.enrolledEmbeddings v'.disk := by
  obtain ⟨t, ht, u, hu, hworker⟩ := hstep.2
  obtain rfl := Option.some.inj (ht.symm.trans hs)
  obtain rfl := Option.some.inj (hu.symm.trans hk)
  rw [hstage] at hworker
  exact hworker

theorem saveEnrollment_of_step {i k : ℕ} {reply : EngineReply} {s : Session} {w : Worker}
    (hstep : enrollStep E v (.hal (.session i (.worker k reply))) v')
    (hs : v.hal.live i = some s) (hk : s.workers[k]? = some w) (hstage : w.stage = .enroll)
    (hplace : v.place i = .saves) :
    Run E (FaceEngineStub.saveEnrollment v.enrolledEmbeddings s.userId) v.disk
      (reply, v'.enrolledEmbeddings) v'.disk := by
  have hrun := enrollRun_of_step hstep hs hk hstage
  unfold EnrollRun at hrun
  rw [hplace] at hrun
  exact hrun

/-- A worker that is past the count stays, unless the count is reset. -/
theorem pastCount_hal {l : HalLabel} (hv : v.Counted) (hstep : enrollStep E v (.hal l) v') {j : ℕ}
    (hj : v.PastCount j) :
    v'.PastCount j ∨ v'.hal.engine.enrollFrameCount = 0 := by
  obtain ⟨hplace, k, hcalling⟩ := hj
  obtain ⟨s, w, hs, hk, hstage⟩ := EnrollHal.isEnrolling_iff.mp hcalling
  obtain ⟨rfl, hw⟩ := (hv.sound j s hs).claimed.only hk
  obtain ⟨h, hhal, hafter⟩ := Option.map_eq_some_iff.mp hstep.1
  have hv' : v'.hal = h := by
    rw [← hafter, EnrollHal.hal_afterStep]
  rw [← hv'] at hhal
  by_cases hl : ∃ k reply, l = .session j (.worker k reply)
  · obtain ⟨k, reply, rfl⟩ := hl
    obtain ⟨t, u, ht, hu, hput⟩ := Hal.workerStep_of_step hhal
    obtain rfl := Option.some.inj (ht.symm.trans hs)
    obtain ⟨rfl, hw'⟩ := (hv.sound j t hs).claimed.only hu
    obtain rfl : u = w := List.singleton_inj.mp (hw'.symm.trans hw)
    have hrun := enrollRun_of_step hstep hs hu hstage
    rcases hplace with htests | hsaves
    · unfold EnrollRun at hrun
      rw [htests] at hrun
      exact hrun.elim
    · have hsaved := saveEnrollment_of_step hstep hs hu hstage hsaves
      have hzero : reply.enrollFrameCount = 0 := hsaved.wp (FaceEngineStub.wp_saveEnrollment E)
      refine .inr ?_
      rw [hput]
      refine (congrArg FaceEngine.enrollFrameCount (engine_workerStep _ _ _ _)).trans ?_
      rw [hstage]
      exact hzero
  · push Not at hl
    obtain ⟨s', hs', hw', -, -⟩ := Hal.worker_stays hhal hs (hv.sound j s hs) hw hl
    have hsame : v'.place j = v.place j := by
      rw [← hafter]
      unfold EnrollHal.afterStep
      split
      · next i k reply =>
          split_ifs
          · have hij : j ≠ i := by
              rintro rfl
              exact hl k reply rfl
            exact Function.update_of_ne hij ..
          · rfl
      · rfl
    refine .inl ⟨by rwa [hsame], 0, EnrollHal.isEnrolling_iff.mpr ⟨s', w, hs', ?_, hstage⟩⟩
    rw [hw']
    rfl

theorem pastCount_goto {i j : ℕ} {place : EnrollPlace} (hhal : v'.hal = v.hal)
    (hplace : v'.place = Function.update v.place i place) (hi : v.PastCount i → place = .saves)
    (hj : v.PastCount j) : v'.PastCount j := by
  obtain ⟨k, hcalling⟩ := hj.2
  refine ⟨?_, k, ?_⟩
  · rw [hplace]
    by_cases hij : j = i
    · obtain rfl := hij
      rw [Function.update_self]
      exact .inr (hi hj)
    · rw [Function.update_of_ne hij]
      exact hj.1
  · unfold EnrollHal.isEnrolling at hcalling ⊢
    rwa [hhal]

theorem counted_step (hv : v.Counted) (hstep : enrollStep E v l v') : v'.Counted := by
  have hgoes : ∀ {i : ℕ} {place : EnrollPlace}, v'.hal = v.hal →
      v'.place = Function.update v.place i place →
      (¬ v.hal.engine.enrollFrameCount < FaceEngine.enrollRequiredGoodFrames →
        v.PastCount i → place = .saves) → v'.Counted := by
    intro i place hhal hplace hi
    refine ⟨hhal ▸ hv.sound, fun hcount => ?_⟩
    rw [hhal] at hcount
    obtain ⟨j, hj⟩ := hv.past hcount
    exact ⟨j, pastCount_goto hhal hplace (hi hcount) hj⟩
  cases l with
  | hal l =>
      obtain ⟨h, hhal, hafter⟩ := Option.map_eq_some_iff.mp hstep.1
      have hv' : v'.hal = h := by
        rw [← hafter, EnrollHal.hal_afterStep]
      rw [← hv'] at hhal
      refine ⟨Hal.sound_step hhal hv.sound, fun hcount => ?_⟩
      rcases enrollFrameCount_hal hstep with heq | heq
      · rw [heq] at hcount
        obtain ⟨j, hj⟩ := hv.past hcount
        refine (pastCount_hal hv hstep hj).elim (fun hj' => ⟨j, hj'⟩) fun hzero => ?_
        rw [← heq, hzero] at hcount
        exact absurd (by decide) hcount
      · rw [heq] at hcount
        exact absurd (by decide) hcount
  | passesTest i k =>
      obtain ⟨-, hat, hhal, hplace⟩ := passesTest_apply hstep.1
      refine hgoes hhal hplace ?_
      rintro - ⟨hpast, -⟩
      simp [hat] at hpast
  | readsCount i k =>
      obtain ⟨-, hat, hhal, hplace⟩ := readsCount_apply hstep.1
      refine hgoes hhal hplace ?_
      rintro - ⟨hpast, -⟩
      simp [hat] at hpast
  | testsCount i k =>
      obtain ⟨-, -, hhal, hplace⟩ := testsCount_apply hstep.1
      exact hgoes hhal hplace fun hcount _ => if_neg hcount
  | counts i k =>
      obtain ⟨-, hcalling, -, hsessions, -, hplace⟩ := counts_apply hstep.1
      have hlive : ∀ j, v'.hal.live j = v.hal.live j := by
        intro j
        unfold Hal.live
        rw [hsessions]
      refine ⟨fun j s hs => hv.sound j s ((hlive j).symm.trans hs), fun _ => ⟨i, .inl ?_, k, ?_⟩⟩
      · rw [hplace, Function.update_self]
      · unfold EnrollHal.isEnrolling at hcalling ⊢
        rwa [hlive]

theorem counted_start (disk : FileSystem) : (start disk).Counted :=
  ⟨fun i s hs => absurd hs Hal.not_live_initial,
    fun hcount => absurd (show (0 : Int32) < FaceEngine.enrollRequiredGoodFrames by decide) hcount⟩

/-- The worker's call of `enroll` ends with the face saved, in the store and in the engine. -/
def SavesFace (E : Environment StorageI FileSystem) (i : ℕ) (faceId : Int32) (v : EnrollStub)
    (l : EnrollLabel) (v' : EnrollStub) : Prop :=
  ∃ k reply s w, l = .hal (.session i (.worker k reply)) ∧ v.hal.live i = some s ∧
    s.workers[k]? = some w ∧ w.stage = .enroll ∧
    Run E (FaceStorageCallbacks.saveTemplate s.userId faceId
      (List.replicate FaceStorageCallbacks.embeddingSize 0)) v.disk true v'.disk ∧
    faceId ∈ v'.enrolledEmbeddings

/-- The worker reads the frame count while a worker of another session is in its call of
`enroll`, past the count. -/
def ReadsBesideCall (i : ℕ) (faceId : Int32) (v : EnrollStub) (l : EnrollLabel) : Prop :=
  ∃ k reply s w, l = .hal (.session i (.worker k reply)) ∧ v.hal.live i = some s ∧
    s.workers[k]? = some w ∧ w.stage = .readFrameCount faceId ∧ ∃ j ≠ i, v.PastCount j

/-- A session announces that the enrolment of the face is complete. -/
def Announces (i : ℕ) (faceId : Int32) (v : EnrollStub) : Prop :=
  ∃ s, v.hal.live i = some s ∧ s.Announces faceId

section reports
variable {i : ℕ} {faceId : Int32}

theorem savesFace_of_concludes {k : ℕ} {reply : EngineReply} {s : Session} {w : Worker}
    (hstep : enrollStep E v (.hal (.session i (.worker k reply))) v')
    (hs : v.hal.live i = some s) (hk : s.workers[k]? = some w) (hstage : w.stage = .enroll)
    (hok : reply.res = VendorCode.faceOk) :
    SavesFace E i reply.faceId v (.hal (.session i (.worker k reply))) v' := by
  have hplace := saves_of_faceOk (enrollRun_of_step hstep hs hk hstage) hok
  have hrun := saveEnrollment_of_step hstep hs hk hstage hplace
  unfold FaceEngineStub.saveEnrollment at hrun
  obtain ⟨saved, t, hsave, hrest⟩ := run_bind.mp hrun
  cases saved with
  | false =>
      obtain ⟨heq, -⟩ := run_done.mp hrest
      obtain ⟨rfl, -⟩ := Prod.mk.inj heq
      cases hok
  | true =>
      obtain ⟨heq, rfl⟩ := run_done.mp hrest
      obtain ⟨rfl, hembeddings⟩ := Prod.mk.inj heq
      refine ⟨k, _, s, w, rfl, hs, hk, hstage, hsave, ?_⟩
      rw [hembeddings]
      exact Std.TreeMap.mem_insert_self

theorem readsBesideCall_of_concludes (hv : v.Counted) {k : ℕ} {reply : EngineReply} {s : Session}
    {w : Worker} (hs : v.hal.live i = some s) (hk : s.workers[k]? = some w)
    (hstage : w.stage = .readFrameCount faceId)
    (hzero : FaceEngine.enrollRequiredGoodFrames - v.hal.engine.enrollFrameCount = 0) :
    ReadsBesideCall i faceId v (.hal (.session i (.worker k reply))) := by
  have hfive : v.hal.engine.enrollFrameCount = FaceEngine.enrollRequiredGoodFrames := by grind
  have hcount : ¬ v.hal.engine.enrollFrameCount < FaceEngine.enrollRequiredGoodFrames := by
    rw [hfive]
    decide
  obtain ⟨j, hj⟩ := hv.past hcount
  refine ⟨k, reply, s, w, rfl, hs, hk, hstage, j, ?_, hj⟩
  rintro rfl
  obtain ⟨-, k', hcalling⟩ := hj
  obtain ⟨t, u, ht, hu, henroll⟩ := EnrollHal.isEnrolling_iff.mp hcalling
  obtain rfl := Option.some.inj (ht.symm.trans hs)
  have hclaimed := (hv.sound j t hs).claimed
  obtain rfl : u = w := List.singleton_inj.mp ((hclaimed.only hu).2.symm.trans (hclaimed.only hk).2)
  rw [henroll] at hstage
  cases hstage

theorem announces_step {l : EnrollLabel} (hv : v.Counted) (hstep : enrollStep E v l v')
    (h : Announces i faceId v') : Announces i faceId v ∨
      (SavesFace E i faceId v l v' ∨ ReadsBesideCall i faceId v l) := by
  obtain ⟨s', hs', hannounces⟩ := h
  cases l with
  | passesTest j k =>
      obtain ⟨-, -, hhal, -⟩ := passesTest_apply hstep.1
      exact .inl ⟨s', hhal ▸ hs', hannounces⟩
  | readsCount j k =>
      obtain ⟨-, -, hhal, -⟩ := readsCount_apply hstep.1
      exact .inl ⟨s', hhal ▸ hs', hannounces⟩
  | testsCount j k =>
      obtain ⟨-, -, hhal, -⟩ := testsCount_apply hstep.1
      exact .inl ⟨s', hhal ▸ hs', hannounces⟩
  | counts j k =>
      obtain ⟨-, -, -, hsessions, -, -⟩ := counts_apply hstep.1
      refine .inl ⟨s', ?_, hannounces⟩
      unfold Hal.live at hs' ⊢
      rwa [← hsessions]
  | hal l =>
      obtain ⟨h, hhal, hafter⟩ := Option.map_eq_some_iff.mp hstep.1
      have hv' : v'.hal = h := by
        rw [← hafter, EnrollHal.hal_afterStep]
      rw [← hv'] at hhal
      cases hs : v.hal.live i with
      | none =>
          rcases Hal.live_step hhal hs' with (hs'' | ⟨-, userId, rfl⟩) | ⟨s, l', hs'', -⟩
          · rw [hs] at hs''
            cases hs''
          · exact absurd hannounces not_announces_create
          · rw [hs] at hs''
            cases hs''
      | some s =>
          rcases Hal.live_cases hhal hs with hsame | ⟨rfl, -⟩ | ⟨u, l', hl', hu, hlabel⟩
          · obtain rfl := Option.some.inj (hsame.symm.trans hs')
            exact .inl ⟨s, hs, hannounces⟩
          · obtain ⟨t, ht, -, heq⟩ := Hal.destroy_step hhal
            rw [heq, Hal.live_destroy (Hal.live_lt ht), if_pos rfl] at hs'
            cases hs'
          · obtain rfl := Option.some.inj (hu.symm.trans hs')
            rcases announces_of_step (hv.sound i s hs).claimed hl' hannounces with
              hbefore | ⟨k, reply, w, rfl, hk, hconcludes⟩
            · exact .inl ⟨s, hs, hbefore⟩
            · obtain rfl : l = .session i (.worker k reply) := hlabel.resolve_right (by simp)
              refine .inr ?_
              unfold WorkerStage.concludes at hconcludes
              cases hstage : w.stage with
              | enroll =>
                  rw [hstage] at hconcludes
                  obtain ⟨hok, rfl⟩ := hconcludes
                  exact .inl (savesFace_of_concludes hstep hs hk hstage hok)
              | readFrameCount f =>
                  rw [hstage] at hconcludes
                  obtain ⟨rfl, hzero⟩ := hconcludes
                  exact .inr (readsBesideCall_of_concludes hv hs hk hstage hzero)
              | _ =>
                  rw [hstage] at hconcludes
                  exact hconcludes.elim

/-- In every run, a session reports that the enrolment of a face is complete only after its
worker has saved the face, or has read the frame count while the worker of another session was
past the count in its call of `enroll`. -/
theorem completion_reported {disk : FileSystem} {ls : List EnrollLabel} {s : Session} {p : Post}
    (hrun : Runs (enrollStep E) (start disk) ls v) (hs : v.hal.live i = some s)
    (hp : p ∈ s.posted) (hcallback : p.callback = .onEnrollmentProgress faceId 0) :
    Happened (enrollStep E) (start disk) ls v fun u l u' =>
      SavesFace E i faceId u l u' ∨ ReadsBesideCall i faceId u l := by
  have hstep : ∀ u l u', Counted u → enrollStep E u l u' → Counted u' ∧
      (Announces i faceId u' → Announces i faceId u ∨
        (SavesFace E i faceId u l u' ∨ ReadsBesideCall i faceId u l)) :=
    fun u l u' hu hstep => ⟨counted_step hu hstep, announces_step hu hstep⟩
  refine (hrun.explained hstep (counted_start disk) ⟨s, hs, .inl ⟨p, hp, hcallback⟩⟩).resolve_left ?_
  rintro ⟨t, ht, -⟩
  exact Hal.not_live_initial ht

end reports
end step

/-- Session 0 has counted four frames and has not read the count yet. Session 1 has raised it
to five and not tested it when session 0 reads. Then the client of session 0 cancels, and
session 1 is asked for more frames. -/
def crossedCount : List EnrollLabel :=
  startedEnrollment 0 0 ++ ([1, 2, 3].flatMap (keptFrame 0)) ++ countedFrame 0 ++
    [.hal (.session 0 (.worker 0 ⟨VendorCode.keep, 0, 4⟩))] ++ startedEnrollment 1 10 ++
    (countedFrame 1).dropLast ++ List.replicate 2 (.hal (.session 0 (.worker 0 noReply))) ++
    [.hal (.session 0 .cancel), .testsCount 1 0]

theorem runs_of_frameRuns {E : Environment StorageI FileSystem} {ls : List EnrollLabel}
    {x y : EnrollStub × FrameHistory} (h : Runs (frameStep E) x ls y) :
    Runs (enrollStep E) x.1 ls y.1 := by
  induction h with
  | nil x => exact .nil x.1
  | cons hl _ ih => exact .cons hl.1 ih

/-- The client of session 0 is told that its enrolment is complete, and no face is saved. -/
theorem completion_reported_crossed : ∃ v s p,
    Runs (enrollStep (storageEnv toyCrypto.toCrypto encryptionMayFail)) (start .empty)
      crossedCount v ∧ v.hal.live 0 = some s ∧ p ∈ s.posted ∧
    p.callback = .onEnrollmentProgress 0 0 ∧ v.place 1 = .returnsKeep ∧
    Happened (enrollStep (storageEnv toyCrypto.toCrypto encryptionMayFail)) (start .empty)
      crossedCount v fun u l u' =>
        SavesFace (storageEnv toyCrypto.toCrypto encryptionMayFail) 0 0 u l u' ∨
          ReadsBesideCall 0 0 u l := by
  have hends : ((replay (fun y l => isServed y.1 l = true ∧ True) control crossedCount
      (.initial, .initial)).bind fun y => (y.1.hal.live 0).map fun s =>
        decide (y.1.place 1 = .returnsKeep ∧
          ∃ p ∈ s.posted, p.callback = .onEnrollmentProgress 0 0)) = some true := by
    decide +kernel
  obtain ⟨z, hz, hmap⟩ := Option.bind_eq_some_iff.mp hends
  obtain ⟨s, hs, hreported⟩ := Option.map_eq_some_iff.mp hmap
  obtain ⟨hkeeps, p, hp, hcallback⟩ := of_decide_eq_true hreported
  obtain ⟨v, hv, hrun⟩ := exists_runs (v := start .empty) (P := fun _ _ _ => True)
    (storageEnv_total toyCrypto.toCrypto encryptionMayFail_ne_always) (runs_of_replay hz) rfl
  have hruns := runs_of_frameRuns (hrun.mono fun _ _ _ h => h.2)
  rw [← hv] at hs hkeeps
  exact ⟨v, s, p, hruns, hs, hp, hcallback, hkeeps, completion_reported hruns hs hp hcallback⟩

end EnrollStub
end FaceHal
