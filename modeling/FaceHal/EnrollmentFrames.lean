import FaceHal.FrameOrigins

/-!
# The frames that an enrolment is built from

All enrolments share the engine's counter, and no start of an operation resets it.
A completed enrolment has enough frames of its own if no frame is counted on top of
what another enrolment left, no count of another enrolment is tested, and no frame is
counted that another camera delivered or that was delivered before the operation began.
-/
namespace FaceHal

namespace FrameHistory

/-- Enough frames were counted for an enrolment that the session was asked for, all
from its own camera and delivered after it was asked for. -/
def Suffices (x : FrameHistory) (i : ℕ) (s : Session) (operation : Option ℕ) : Prop :=
  ∃ n ∈ operation, s.operations[n]? = some .enroll ∧
    FaceEngine.enrollRequiredGoodFrames.toInt ≤ x.counted.countP fun f =>
      f.session = i ∧ f.userId = s.userId ∧ f.operation = some n ∧ f.origin.camera = i ∧
        n < f.origin.calls

/-- The newest counted frame was counted for the same operation. -/
def LastFor (x : FrameHistory) (f : CountedFrame) : Prop :=
  ∃ last ∈ x.counted.head?, last.session = f.session ∧ last.operation = f.operation

/-- A frame is only counted for the operation it was delivered to, on top of zero or of
frames of that operation, and so is the count that its test finds high enough. -/
def CountsOwnFrames (x : FrameHistory) (c : EnrollHal) : EnrollLabel → Prop
  | .counts i k => ∀ f ∈ x.frameOf c.hal i k, f.IsOwn ∧ (c.place i = .counts 0 ∨ x.LastFor f)
  | .testsCount i k => ∀ f ∈ x.frameOf c.hal i k,
      c.hal.engine.enrollFrameCount < FaceEngine.enrollRequiredGoodFrames ∨ x.LastFor f
  | _ => True

end FrameHistory

namespace EnrollStub

/-- The system with its history. -/
def frameStep (E : Environment StorageI FileSystem) :
    System (EnrollStub × FrameHistory) EnrollLabel :=
  withHistory (enrollStep E) fun v l _ x => x.record v.hal l

/-- An enrolment that completes is built from frames of its own. -/
def BuiltFromOwnFrames (v : EnrollStub × FrameHistory) : EnrollLabel → Prop
  | .hal (.session i (.worker k reply)) => ∀ s ∈ v.1.hal.live i, ∀ w ∈ s.workers[k]?,
      w.stage = .enroll → reply.res = VendorCode.faceOk → v.2.Suffices i s w.operation
  | _ => True

end EnrollStub

namespace Hal
variable {h h' : Hal} {i : ℕ} {s : Session} {w : Worker}

theorem users_of_live (hs : h.live i = some s) : h.users[i]? = some s.userId := by
  obtain ⟨o, ho, hsome⟩ := Option.bind_eq_some_iff.mp hs
  split_ifs at hsome
  obtain rfl := Option.some.inj hsome
  unfold users
  rw [List.getElem?_map, ho]
  rfl

theorem sound_step {l : HalLabel} (hstep : halStep h l h')
    (hsound : ∀ i s, h.live i = some s → s.Sound) :
    ∀ i s, h'.live i = some s → s.Sound := by
  intro i s' hs'
  rcases live_step hstep hs' with (hs | ⟨-, userId, rfl⟩) | ⟨s, l', hs, hl⟩
  · exact hsound i s' hs
  · exact Session.sound_create userId
  · exact FaceHal.sound_step (v := ⟨h.engine, s⟩) (hsound i s hs) hl

theorem worker_stays {l : HalLabel} (hstep : halStep h l h') (hs : h.live i = some s)
    (hsound : s.Sound) (hw : s.workers = [w])
    (hl : ∀ k reply, l ≠ .session i (.worker k reply)) :
    ∃ s', h'.live i = some s' ∧ s'.workers = [w] ∧ s'.userId = s.userId ∧
      ∃ rest, s'.operations = s.operations ++ rest := by
  rcases live_cases hstep hs with hsame | ⟨-, hnone⟩ | ⟨v, l', hv, hs', hlabel⟩
  · exact ⟨s, hsame, hw, rfl, [], (List.append_nil _).symm⟩
  · rw [hw] at hnone
    cases hnone
  · refine ⟨v.session, hs', ?_, userId_step hv, operations_of_step hv⟩
    have hother : ∀ k reply, l' ≠ .worker k reply := by
      rintro k reply rfl
      rcases hlabel with heq | heq
      · exact hl k reply heq
      · cases heq
    rcases workers_of_step hsound.claimed hv hother with hkept | ⟨hnil, -⟩
    · exact hkept.trans hw
    · exact absurd (hnil.symm.trans hw) (List.cons_ne_nil _ _).symm

end Hal

namespace FrameHistory
variable {x x' : FrameHistory} {i m : ℕ} {s s' : Session} {operation : Option ℕ}
  {f : CountedFrame}

/-- The newest frames were counted for one operation and are its own. -/
def NewestOwn (x : FrameHistory) (m : ℕ) : Prop :=
  m ≤ x.counted.length ∧ ∃ i operation, ∀ f ∈ x.counted.take m,
    f.session = i ∧ f.operation = operation ∧ f.IsOwn

theorem newestOwn_zero (x : FrameHistory) : x.NewestOwn 0 :=
  ⟨Nat.zero_le _, 0, none, by simp⟩

theorem mem_take_of_head {l : List CountedFrame} (hf : f ∈ l.head?) (hm : m ≠ 0) :
    f ∈ l.take m := by
  obtain ⟨m, rfl⟩ := Nat.exists_eq_succ_of_ne_zero hm
  cases l with
  | nil => cases hf
  | cons g rest =>
      obtain rfl := Option.some.inj hf
      rw [List.take_succ_cons]
      exact List.mem_cons_self ..

theorem NewestOwn.succ (h : x.NewestOwn m) (hcounted : x'.counted = f :: x.counted)
    (hown : f.IsOwn) (hlast : m ≠ 0 → x.LastFor f) : x'.NewestOwn (m + 1) := by
  obtain ⟨hlen, i, operation, hall⟩ := h
  refine ⟨by rw [hcounted]; simpa using hlen, f.session, f.operation, ?_⟩
  rw [hcounted, List.take_succ_cons]
  intro g hg
  rcases List.mem_cons.mp hg with rfl | hg
  · exact ⟨rfl, rfl, hown⟩
  · obtain ⟨hi, hop, hgown⟩ := hall g hg
    have hm : m ≠ 0 := by
      rintro rfl
      simp at hg
    obtain ⟨last, hhead, hsession, hoperation⟩ := hlast hm
    obtain ⟨hi', hop', -⟩ := hall last (mem_take_of_head hhead hm)
    exact ⟨by rw [hi, ← hi', hsession], by rw [hop, ← hop', hoperation], hgown⟩

theorem NewestOwn.suffices (h : x.NewestOwn m) (hm : FaceEngine.enrollRequiredGoodFrames.toInt ≤ m)
    (hlast : x.LastFor f)
    (husers : ∀ g ∈ x.counted, g.session = f.session → g.userId = s.userId)
    (henroll : ∀ n ∈ f.operation, s.operations[n]? = some .enroll) :
    x.Suffices f.session s f.operation := by
  obtain ⟨hlen, i, operation, hall⟩ := h
  obtain ⟨last, hhead, hsession, hoperation⟩ := hlast
  rw [← hsession] at husers ⊢
  rw [← hoperation] at henroll ⊢
  have hpos : m ≠ 0 := by
    rintro rfl
    exact absurd hm (by decide)
  obtain ⟨rfl, rfl, -, n, hn, -⟩ := hall last (mem_take_of_head hhead hpos)
  refine ⟨n, hn, henroll n hn, hm.trans ?_⟩
  have htake : (x.counted.take m).countP (fun g => g.session = last.session ∧
      g.userId = s.userId ∧ g.operation = some n ∧ g.origin.camera = last.session ∧
        n < g.origin.calls) = m := by
    refine (List.countP_eq_length.mpr ?_).trans (List.length_take_of_le hlen)
    intro g hg
    obtain ⟨hsession, hoperation, hcamera, n', hn', hlt⟩ := hall g hg
    obtain rfl : n = n' := Option.some.inj (hn.symm.trans (hoperation ▸ hn'))
    have huser := husers g (List.mem_of_mem_take hg) hsession
    exact decide_eq_true ⟨hsession, huser, hn', hcamera.trans hsession, hlt⟩
  rw [← htake]
  exact Int.ofNat_le.mpr (List.Sublist.countP_le (List.take_sublist ..))

theorem Suffices.mono {pre : List CountedFrame} {rest : List RequestedOperation}
    (h : x.Suffices i s operation) (hcounted : x'.counted = pre ++ x.counted)
    (huser : s'.userId = s.userId) (hops : s'.operations = s.operations ++ rest) :
    x'.Suffices i s' operation := by
  obtain ⟨n, hn, hop, hcount⟩ := h
  refine ⟨n, hn, Session.getElem?_extend hops hop, hcount.trans ?_⟩
  rw [hcounted, huser, List.countP_append]
  exact Int.ofNat_le.mpr (Nat.le_add_left _ _)

end FrameHistory

namespace EnrollStub

/-- As many of the newest frames as the count says are an operation's own. -/
def Covers (x : FrameHistory) (enrollFrameCount : Int32) : Prop :=
  ∀ m : ℕ, (m : ℤ) ≤ enrollFrameCount.toInt → x.NewestOwn m

/-- The history accounts for the count and for the calls of `enroll`. A count that a worker
has read stays accounted for until another session counts a frame. -/
structure Attributed (v : EnrollStub × FrameHistory) : Prop where
  sound : ∀ i s, v.1.hal.live i = some s → s.Sound
  aligned : FrameHistory.Aligned v.1.hal v.2
  users : ∀ f ∈ v.2.counted, v.1.hal.users[f.session]? = some f.userId
  newest : Covers v.2 v.1.hal.engine.enrollFrameCount
  reading : ∀ i n, v.1.place i = .counts n →
    Covers v.2 n ∨ ∃ last ∈ v.2.counted.head?, last.session ≠ i
  calling : ∀ i, v.1.place i ≠ .testsCancelled → ∃ s w, v.1.hal.live i = some s ∧
    s.workers = [w] ∧ w.stage = .enroll ∧ (v.1.place i = .saves → v.2.Suffices i s w.operation)

theorem covers_zero (x : FrameHistory) : Covers x 0 := by
  intro m hm
  obtain rfl : m = 0 := by
    have hzero : (0 : Int32).toInt = 0 := rfl
    omega
  exact FrameHistory.newestOwn_zero x

theorem Covers.congr {x x' : FrameHistory} {enrollFrameCount : Int32}
    (h : Covers x enrollFrameCount) (hcounted : x'.counted = x.counted) :
    Covers x' enrollFrameCount := by
  intro m hm
  have hnewest := h m hm
  unfold FrameHistory.NewestOwn at hnewest ⊢
  rwa [hcounted]

theorem counted_hal (x : FrameHistory) (h : Hal) (l : HalLabel) :
    (x.record h (.hal l)).counted = x.counted := by
  unfold FrameHistory.record
  cases l with
  | createSession sensorId userId => rfl
  | destroy i => rfl
  | cameraFrame i =>
      unfold FrameHistory.deliver
      dsimp only
      split
      · rfl
      · split
        · rfl
        · split_ifs <;> rfl
  | session i l' =>
      cases l' with
      | frameClaims k =>
          dsimp only
          cases h.live i <;> rfl
      | worker k reply =>
          dsimp only
          split_ifs <;> rfl
      | _ => rfl

section step
variable {E : Environment StorageI FileSystem} {v v' : EnrollStub} {x : FrameHistory}

theorem attributed_hal {l : HalLabel} (hv : Attributed (v, x))
    (hstep : enrollStep E v (.hal l) v') : Attributed (v', x.record v.hal (.hal l)) := by
  have hcount := enrollFrameCount_hal hstep
  obtain ⟨h, hhal, hafter⟩ := Option.map_eq_some_iff.mp hstep.1
  have hv' : v'.hal = h := by
    rw [← hafter, EnrollHal.hal_afterStep]
  rw [← hv'] at hhal
  have hcounted : (x.record v.hal (.hal l)).counted = [] ++ x.counted := counted_hal x v.hal l
  refine ⟨Hal.sound_step hhal hv.sound, hv.aligned.step hhal, ?_, ?_, ?_, ?_⟩
  · intro f hf
    rw [hcounted] at hf
    have hold : v.hal.users[f.session]? = some f.userId := hv.users f hf
    rcases Hal.users_step hhal with heq | ⟨userId, -, heq⟩
    · exact heq ▸ hold
    · dsimp only
      rw [heq, List.getElem?_append_left (List.getElem?_eq_some_iff.mp hold).choose]
      exact hold
  · rcases hcount with heq | heq
    · dsimp only
      rw [heq]
      exact hv.newest.congr hcounted
    · dsimp only
      rw [heq]
      exact covers_zero _
  · intro i n hplace
    have hplace' : (v.afterStep l h).place i = .counts n := by
      rw [hafter]
      exact hplace
    obtain ⟨hsame, -⟩ := EnrollHal.place_afterStep (by rw [hplace']; simp)
    refine (hv.reading i n (hsame.symm.trans hplace')).imp (fun hcovers => hcovers.congr hcounted) ?_
    rintro ⟨last, hlast, hne⟩
    exact ⟨last, hcounted.symm ▸ hlast, hne⟩
  · intro i hplace
    dsimp only at hplace ⊢
    rw [← hafter] at hplace ⊢
    obtain ⟨hsame, hcalls⟩ := EnrollHal.place_afterStep hplace
    rw [hsame] at hplace ⊢
    obtain ⟨s, w, hs, hw, hstage, hsaves⟩ := hv.calling i hplace
    have hother : ∀ k reply, l ≠ .session i (.worker k reply) := by
      rintro k reply rfl
      obtain ⟨t, u, ht, hu, -⟩ := Hal.workerStep_of_step hhal
      obtain rfl := Option.some.inj (ht.symm.trans hs)
      obtain ⟨-, honly⟩ := (hv.sound i t hs).claimed.only hu
      obtain rfl : u = w := List.singleton_inj.mp (honly.symm.trans hw)
      have hcalling := EnrollHal.isEnrolling_iff.mpr ⟨t, u, hs, hu, hstage⟩
      rw [hcalls k reply rfl] at hcalling
      cases hcalling
    obtain ⟨s', hs', hw', huser, rest, hops⟩ :=
      Hal.worker_stays hhal hs (hv.sound i s hs) hw hother
    rw [EnrollHal.hal_afterStep, ← hv']
    exact ⟨s', w, hs', hw', hstage, fun hplace' => (hsaves hplace').mono hcounted huser hops⟩

/-- A worker goes on in its call of `enroll`, and may count a frame. -/
theorem Attributed.advance {i : ℕ} {s : Session} {w : Worker} {place : EnrollPlace}
    {pre : List CountedFrame} {x' : FrameHistory} (hv : Attributed (v, x))
    (hs : v.hal.live i = some s) (hw : s.workers = [w]) (hstage : w.stage = .enroll)
    (hsessions : v'.hal.sessions = v.hal.sessions)
    (hplace : v'.place = Function.update v.place i place)
    (hx' : x' = ⟨x.arrived, x.taken, pre ++ x.counted⟩)
    (hpre : ∀ f ∈ pre, f.session = i ∧ f.userId = s.userId)
    (hnewest : Covers x' v'.hal.engine.enrollFrameCount)
    (hreading : ∀ n, place = .counts n → Covers x' n)
    (hsaves : place = .saves → x'.Suffices i s w.operation) : Attributed (v', x') := by
  have hlive : ∀ j, v'.hal.live j = v.hal.live j := by
    intro j
    unfold Hal.live
    rw [hsessions]
  have hcounted : x'.counted = pre ++ x.counted := congrArg FrameHistory.counted hx'
  refine ⟨?_, ?_, ?_, hnewest, ?_, ?_⟩
  · intro j t ht
    exact hv.sound j t ((hlive j).symm.trans ht)
  · rw [hx']
    exact ⟨fun j t ht => hv.aligned.live j t ((hlive j).symm.trans ht),
      fun j hj => hv.aligned.unborn j (by rwa [← hsessions])⟩
  · intro f hf
    dsimp only [Hal.users] at hf ⊢
    rw [hsessions]
    rw [hcounted] at hf
    rcases List.mem_append.mp hf with hf | hf
    · obtain ⟨rfl, huser⟩ := hpre f hf
      rw [huser]
      exact Hal.users_of_live hs
    · exact hv.users f hf
  · intro j n hj
    dsimp only at hj
    rw [hplace] at hj
    by_cases hij : j = i
    · obtain rfl := hij
      rw [Function.update_self] at hj
      exact .inl (hreading n hj)
    · rw [Function.update_of_ne hij] at hj
      cases hp : pre with
      | nil =>
          rw [hp, List.nil_append] at hcounted
          refine (hv.reading j n hj).imp (fun hcovers => hcovers.congr hcounted) ?_
          rintro ⟨last, hlast, hne⟩
          exact ⟨last, hcounted.symm ▸ hlast, hne⟩
      | cons f rest =>
          rw [hp] at hcounted hpre
          refine .inr ⟨f, by rw [hcounted]; rfl, ?_⟩
          rw [(hpre f (List.mem_cons_self ..)).1]
          exact Ne.symm hij
  · intro j hj
    dsimp only at hj ⊢
    rw [hlive]
    rw [hplace] at hj ⊢
    by_cases hij : j = i
    · obtain rfl := hij
      rw [Function.update_self]
      exact ⟨s, w, hs, hw, hstage, hsaves⟩
    · rw [Function.update_of_ne hij] at hj ⊢
      obtain ⟨t, u, ht, hu, hustage, hold⟩ := hv.calling j hj
      refine ⟨t, u, ht, hu, hustage, fun hplace' => ?_⟩
      exact (hold hplace').mono hcounted rfl (List.append_nil _).symm

theorem Attributed.goes_on {i k : ℕ} {place : EnrollPlace} (hv : Attributed (v, x))
    (hcalls : v.isEnrolling i k = true) (hhal : v'.hal = v.hal)
    (hplace : v'.place = Function.update v.place i place)
    (hreading : ∀ n, place = .counts n → n = v.hal.engine.enrollFrameCount)
    (hsaves : place = .saves → ∀ s w, v.hal.live i = some s → s.workers = [w] →
      x.Suffices i s w.operation) : Attributed (v', x) := by
  obtain ⟨s, w, hs, hk, hstage⟩ := EnrollHal.isEnrolling_iff.mp hcalls
  obtain ⟨-, hw⟩ := (hv.sound i s hs).claimed.only hk
  have hnewest : Covers x v.hal.engine.enrollFrameCount := hv.newest
  have hnone : ∀ f ∈ ([] : List CountedFrame), f.session = i ∧ f.userId = s.userId := by simp
  refine hv.advance hs hw hstage (congrArg Hal.sessions hhal) hplace rfl
    hnone (hhal ▸ hnewest) ?_ fun hp => hsaves hp s w hs hw
  intro n hn
  rw [hreading n hn]
  exact hnewest

theorem attributed_passesTest {i k : ℕ} (hv : Attributed (v, x))
    (hstep : enrollStep E v (.passesTest i k) v') : Attributed (v', x) := by
  obtain ⟨hcalls, -, hhal, hplace⟩ := passesTest_apply hstep.1
  exact hv.goes_on hcalls hhal hplace (by simp) (by simp)

theorem attributed_readsCount {i k : ℕ} (hv : Attributed (v, x))
    (hstep : enrollStep E v (.readsCount i k) v') : Attributed (v', x) := by
  obtain ⟨hcalls, -, hhal, hplace⟩ := readsCount_apply hstep.1
  exact hv.goes_on hcalls hhal hplace (fun n hn => (EnrollPlace.counts.inj hn).symm) (by simp)

theorem Attributed.exists_frameOf {i : ℕ} {s : Session} {w : Worker} (hv : Attributed (v, x))
    (hs : v.hal.live i = some s) (hw : s.workers = [w]) :
    ∃ origin, x.frameOf v.hal i 0 = some ⟨i, s.userId, w.operation, origin⟩ := by
  have hlen : (x.taken i).length = s.workers.length := (hv.aligned.live i s hs).2
  rw [hw, List.length_singleton] at hlen
  have horigin : (x.taken i)[0]? = some ((x.taken i)[0]) := List.getElem?_eq_getElem (by omega)
  exact ⟨(x.taken i)[0], by simp [FrameHistory.frameOf, hs, hw, horigin]⟩

/-- A frame that is counted raises the count, unless that overflows. -/
theorem le_of_le_add_one {count : Int32} {m : ℕ} (h : ((m + 1 : ℕ) : ℤ) ≤ (count + 1).toInt) :
    (m : ℤ) ≤ count.toInt := by
  rw [Int32.toInt_add] at h
  have hlt := count.toInt_lt
  have hle := count.le_toInt
  have hone : (1 : Int32).toInt = 1 := rfl
  rw [hone, Int.bmod_def] at h
  omega

/-- The frame that is counted is the newest one, for the operation of its worker. -/
theorem Covers.succ {count : Int32} {f : CountedFrame} {x' : FrameHistory}
    (hnewest : Covers x count) (hcounted : x'.counted = f :: x.counted) (hown : f.IsOwn)
    (hlast : count = 0 ∨ x.LastFor f) : Covers x' (count + 1) := by
  intro m hm
  cases m with
  | zero => exact FrameHistory.newestOwn_zero _
  | succ m =>
      have hle := le_of_le_add_one hm
      refine (hnewest m hle).succ hcounted hown fun hne => hlast.resolve_left ?_
      rintro rfl
      have hzero : (0 : Int32).toInt = 0 := rfl
      omega

/-- Once the count is high enough, the newest frames suffice for their operation. -/
theorem Covers.suffices {count : Int32} {f : CountedFrame} {s : Session} (hnewest : Covers x count)
    (hcount : ¬ count < FaceEngine.enrollRequiredGoodFrames) (hlast : x.LastFor f)
    (husers : ∀ g ∈ x.counted, g.session = f.session → g.userId = s.userId)
    (hreports : ∀ n, f.operation = some n →
      ∃ operation, s.operations[n]? = some operation ∧ operation.kind = .enroll) :
    x.Suffices f.session s f.operation := by
  have hle : FaceEngine.enrollRequiredGoodFrames.toInt ≤ count.toInt :=
    Int32.le_iff_toInt_le.mp (Int32.not_lt.mp hcount)
  have hfive : FaceEngine.enrollRequiredGoodFrames.toInt = 5 := rfl
  have hcast : (count.toInt.toNat : ℤ) = count.toInt := Int.toNat_of_nonneg (by omega)
  refine (hnewest _ hcast.le).suffices (by rwa [hcast]) hlast husers ?_
  intro n hn
  obtain ⟨operation, hop, hkind⟩ := hreports n hn
  cases operation with
  | enroll => exact hop
  | authenticate operationId => cases hkind
  | detectInteraction => cases hkind

theorem attributed_counts {i k : ℕ} (hv : Attributed (v, x))
    (hown : x.CountsOwnFrames v.toEnrollHal (.counts i k))
    (hstep : enrollStep E v (.counts i k) v') :
    Attributed (v', x.record v.hal (.counts i k)) := by
  obtain ⟨n, hcalls, hat, hsessions, hcount, hplace⟩ := counts_apply hstep.1
  obtain ⟨s, w, hs, hk, hstage⟩ := EnrollHal.isEnrolling_iff.mp hcalls
  obtain ⟨rfl, hw⟩ := (hv.sound i s hs).claimed.only hk
  obtain ⟨origin, hframe⟩ := hv.exists_frameOf hs hw
  obtain ⟨hfown, hlast⟩ := hown _ hframe
  rw [hat, EnrollPlace.counts.injEq] at hlast
  have hrecord : x.record v.hal (.counts i 0) =
      ⟨x.arrived, x.taken, [⟨i, s.userId, w.operation, origin⟩] ++ x.counted⟩ := by
    simp [FrameHistory.record, hframe]
  have hcovers : Covers (x.record v.hal (.counts i 0)) (n + 1) := by
    rcases hv.reading i n hat with hcovers | ⟨last, hhead, hne⟩
    · exact hcovers.succ (congrArg FrameHistory.counted hrecord) hfown hlast
    · obtain rfl : n = 0 := by
        refine hlast.resolve_right ?_
        rintro ⟨last', hhead', hsession, -⟩
        obtain rfl := Option.some.inj (hhead.symm.trans hhead')
        exact hne hsession
      exact (covers_zero x).succ (congrArg FrameHistory.counted hrecord) hfown (.inl rfl)
  exact hv.advance hs hw hstage hsessions hplace hrecord (by simp) (by rwa [hcount]) (by simp)
    (by simp)

theorem attributed_testsCount {i k : ℕ} (hv : Attributed (v, x))
    (hown : x.CountsOwnFrames v.toEnrollHal (.testsCount i k))
    (hstep : enrollStep E v (.testsCount i k) v') : Attributed (v', x) := by
  obtain ⟨hcalls, -, hhal, hplace⟩ := testsCount_apply hstep.1
  obtain ⟨t, u, ht, hk, hstage⟩ := EnrollHal.isEnrolling_iff.mp hcalls
  have hsound : t.Sound := hv.sound i t ht
  obtain ⟨rfl, hu⟩ := hsound.claimed.only hk
  refine hv.goes_on hcalls hhal hplace ?_ ?_
  · intro n hn
    unfold EnrollHal.afterCount at hn
    split_ifs at hn
  · intro hsaves s w hs hw
    obtain rfl := Option.some.inj (ht.symm.trans hs)
    obtain rfl := List.singleton_inj.mp (hu.symm.trans hw)
    unfold EnrollHal.afterCount at hsaves
    split_ifs at hsaves with hmore
    obtain ⟨origin, hframe⟩ := hv.exists_frameOf hs hw
    have hlast := (hown _ hframe).resolve_left hmore
    refine Covers.suffices hv.newest hmore hlast ?_ ?_
    · intro g hg hsession
      have hguser : v.hal.users[g.session]? = some g.userId := hv.users g hg
      rw [hsession, Hal.users_of_live hs] at hguser
      exact (Option.some.inj hguser).symm
    · exact hsound.reports u (by rw [hw]; exact List.mem_singleton_self u) hstage

theorem attributed_start (disk : FileSystem) : Attributed (start disk, .initial) := by
  refine ⟨fun i s hs => absurd hs Hal.not_live_initial, FrameHistory.aligned_initial,
    by simp [FrameHistory.initial], covers_zero _, ?_, ?_⟩
  · intro i n hplace
    cases hplace
  · intro i hplace
    exact absurd rfl hplace

/-- A step that counts own frames only keeps the account. -/
theorem attributed_step {l : EnrollLabel} {x' : FrameHistory} (hv : Attributed (v, x))
    (hown : x.CountsOwnFrames v.toEnrollHal l) (hstep : frameStep E (v, x) l (v', x')) :
    Attributed (v', x') := by
  obtain ⟨hengine, hx'⟩ := hstep
  obtain rfl : x' = x.record v.hal l := hx'
  cases l with
  | hal l => exact attributed_hal hv hengine
  | passesTest i k => exact attributed_passesTest hv hengine
  | readsCount i k => exact attributed_readsCount hv hengine
  | counts i k => exact attributed_counts hv hown hengine
  | testsCount i k => exact attributed_testsCount hv hown hengine

/-- Only a call that saves a face completes an enrolment. -/
theorem saves_of_faceOk {i : ℕ} {userId : Int32} {reply : EngineReply} {embeddings : Embeddings}
    {disk : FileSystem} (h : v.EnrollRun E i userId reply embeddings disk)
    (hok : reply.res = VendorCode.faceOk) : v.place i = .saves := by
  unfold EnrollRun at h
  cases hplace : v.place i with
  | testsCancelled =>
      rw [hplace] at h
      obtain ⟨-, rfl, -⟩ := h
      cases hok
  | readsCount | counts _ | testsCount =>
      rw [hplace] at h
      exact h.elim
  | returnsKeep =>
      rw [hplace] at h
      obtain ⟨rfl, -⟩ := h
      cases hok
  | saves => rfl

theorem built_of_attributed {l : EnrollLabel} (hv : Attributed (v, x))
    (hstep : enrollStep E v l v') : BuiltFromOwnFrames (v, x) l := by
  cases l with
  | passesTest i k | readsCount i k | counts i k | testsCount i k => trivial
  | hal l =>
      cases l with
      | createSession sensorId userId | cameraFrame i | destroy i => trivial
      | session i l' =>
          cases l' with
          | worker k reply =>
              intro s hs w hk hstage hok
              obtain ⟨t, ht, u, hu, hrun⟩ := hstep.2
              obtain rfl := Option.some.inj (ht.symm.trans hs)
              obtain rfl := Option.some.inj (hu.symm.trans hk)
              rw [hstage] at hrun
              have hsaves := saves_of_faceOk hrun hok
              obtain ⟨t', u', ht', hu', -, hsuffices⟩ := hv.calling i (by simp [hsaves])
              obtain rfl := Option.some.inj (ht'.symm.trans hs)
              obtain ⟨-, honly⟩ := (hv.sound i t' hs).claimed.only hk
              obtain rfl : u = u' := List.singleton_inj.mp (honly.symm.trans hu')
              exact hsuffices hsaves
          | _ => trivial

end step

/-- What the stub answers to a worker whatever its faces and the files are. -/
def answers (c : EnrollHal) (i : ℕ) (w : Worker) (reply : EngineReply) : Bool :=
  match w.stage, c.place i with
  | .authenticate, _ | .analyze, _ | .enroll, .readsCount | .enroll, .counts _
  | .enroll, .testsCount | .enroll, .saves => false
  | .enroll, .testsCancelled => c.hal.engine.isCancelled &&
      reply = ⟨-1, 0, c.hal.engine.enrollFrameCount⟩
  | .enroll, .returnsKeep => reply = ⟨VendorCode.keep, 0, c.hal.engine.enrollFrameCount⟩
  | _, _ => true

/-- The step is possible whatever the faces and the files are. -/
def isServed (c : EnrollHal) : EnrollLabel → Bool
  | .hal (.session _ (.enumerateEnrollments _)) => false
  | .hal (.session _ (.removeEnrollments _)) => false
  | .hal (.session i (.worker k reply)) =>
      (c.hal.live i).any fun s => (s.workers[k]?).any fun w => answers c i w reply
  | _ => true

/-- The sessions and the history without the faces and the files. -/
def control (y : EnrollHal × FrameHistory) (l : EnrollLabel) : Option (EnrollHal × FrameHistory) :=
  (l.apply y.1).map fun c => (c, y.2.record y.1.hal l)

section served
variable {E : Environment StorageI FileSystem} {v : EnrollStub} {c : EnrollHal}

theorem workerRun_of_answers {i : ℕ} {w : Worker} {reply : EngineReply} (userId : Int32)
    (h : answers v.toEnrollHal i w reply = true) :
    v.WorkerRun E i userId w.stage reply v.enrolledEmbeddings v.disk := by
  unfold answers at h
  cases hstage : w.stage with
  | authenticate | analyze => simp [hstage] at h
  | enroll =>
      unfold WorkerRun EnrollRun
      cases hplace : v.place i with
      | testsCancelled =>
          simp only [hstage, hplace, Bool.and_eq_true, decide_eq_true_eq] at h
          exact ⟨h.1, h.2, rfl, rfl⟩
      | returnsKeep =>
          simp only [hstage, hplace, decide_eq_true_eq] at h
          exact ⟨h, rfl, rfl⟩
      | readsCount | counts _ | testsCount | saves => simp [hstage, hplace] at h
  | _ => exact ⟨rfl, rfl⟩

/-- If the store answers every call, a served step can be taken. -/
theorem exists_step {l : EnrollLabel} (hE : ∀ c s, ∃ r t, E c s r t)
    (hserved : isServed v.toEnrollHal l = true) (happly : l.apply v.toEnrollHal = some c) :
    ∃ v', v'.toEnrollHal = c ∧ enrollStep E v l v' := by
  have hkept : (∀ l', l = .hal l' → v.EngineRun E l' v.enrolledEmbeddings v.disk) →
      ∃ v', v'.toEnrollHal = c ∧ enrollStep E v l v' := by
    intro hrun
    refine ⟨⟨c, v.enrolledEmbeddings, v.disk⟩, rfl, happly, ?_⟩
    cases l with
    | hal l => exact hrun l rfl
    | passesTest i k | readsCount i k | counts i k | testsCount i k => exact ⟨rfl, rfl⟩
  cases l with
  | passesTest i k | readsCount i k | counts i k | testsCount i k => exact hkept (by simp)
  | hal l =>
      cases l with
      | createSession sensorId userId =>
          by_cases hid : sensorId ≠ 1008
          · refine hkept ?_
            rintro _ ⟨⟩
            exact (if_pos hid).mpr ⟨rfl, rfl⟩
          · obtain ⟨embeddings, disk, hrun⟩ :=
              Program.exists_run hE (FaceEngineStub.restoreEnrollments userId) v.disk
            exact ⟨⟨c, embeddings, disk⟩, rfl, happly, (if_neg hid).mpr hrun⟩
      | cameraFrame i | destroy i =>
          refine hkept ?_
          rintro _ ⟨⟩
          exact ⟨rfl, rfl⟩
      | session i l' =>
          refine hkept ?_
          rintro _ ⟨⟩
          cases l' with
          | enumerateEnrollments ids | removeEnrollments ids => cases hserved
          | worker k reply =>
              obtain ⟨s, hs, hany⟩ := Option.any_eq_true _ _ |>.mp hserved
              obtain ⟨w, hw, hanswers⟩ := Option.any_eq_true _ _ |>.mp hany
              exact ⟨s, hs, w, hw, workerRun_of_answers s.userId hanswers⟩
          | _ => exact ⟨rfl, rfl⟩

/-- A run of the sessions whose steps are served is a run of the whole system. -/
theorem exists_runs {P : FrameHistory → EnrollHal → EnrollLabel → Prop}
    {y z : EnrollHal × FrameHistory} {ls : List EnrollLabel} (hE : ∀ c s, ∃ r t, E c s r t)
    (hrun : Runs (guarded (fun y l => isServed y.1 l = true ∧ P y.2 y.1 l)
      fun y l z => control y l = some z) y ls z) (hv : v.toEnrollHal = y.1) :
    ∃ v', v'.toEnrollHal = z.1 ∧
      Runs (guarded (fun v => P v.2 v.1.toEnrollHal) (frameStep E)) (v, y.2) ls (v', z.2) := by
  have hsimulate : ∀ (y : EnrollHal × FrameHistory) (l : EnrollLabel)
      (z : EnrollHal × FrameHistory) (u : EnrollStub × FrameHistory),
      u.1.toEnrollHal = y.1 ∧ u.2 = y.2 →
      guarded (fun y l => isServed y.1 l = true ∧ P y.2 y.1 l)
        (fun y l z => control y l = some z) y l z →
      ∃ u', guarded (fun v => P v.2 v.1.toEnrollHal) (frameStep E) u l u' ∧
        u'.1.toEnrollHal = z.1 ∧ u'.2 = z.2 := by
    rintro ⟨c, x⟩ l ⟨c', x'⟩ ⟨u, x''⟩ ⟨rfl, rfl⟩ ⟨⟨hserved, hP⟩, hcontrol⟩
    obtain ⟨c'', happly, heq⟩ := Option.map_eq_some_iff.mp hcontrol
    obtain ⟨rfl, rfl⟩ := Prod.mk.inj heq
    obtain ⟨u', hu', hstep⟩ := exists_step hE hserved happly
    exact ⟨(u', _), ⟨hP, hstep, rfl⟩, hu', rfl⟩
  have hstart : (v, y.2).1.toEnrollHal = y.1 ∧ (v, y.2).2 = y.2 := ⟨hv, rfl⟩
  obtain ⟨⟨v', x⟩, hruns, hv', rfl⟩ := hrun.simulate hsimulate hstart
  exact ⟨v', hv', hruns⟩

end served

theorem wp_saveEnrollment_ok (C : LawfulCrypto) {embeddings : Embeddings} {userId : Int32}
    {disk : FileSystem} : (FaceEngineStub.saveEnrollment embeddings userId).wp
      (storageEnv C.toCrypto encryptionMayFail) (fun a _ => a.1.res = VendorCode.faceOk) disk := by
  unfold FaceEngineStub.saveEnrollment FaceStorageCallbacks.saveTemplate
  rw [Program.wp_bind, invoke_bind]
  rintro _ _ ⟨rfl, rfl⟩
  exact FaceStorageManager.wp_saveTemplate.mpr ⟨fun _ => rfl, rfl⟩

/-- A frame of the session's camera, until a worker has counted it and tested the count. -/
def countedFrame (i : ℕ) : List EnrollLabel :=
  [.hal (.cameraFrame i), .hal (.session i (.frameClaims 0))] ++
    List.replicate 4 (.hal (.session i (.worker 0 noReply))) ++
      [.passesTest i 0, .readsCount i 0, .counts i 0, .testsCount i 0]

/-- The frame was not the last one, and its worker is gone. -/
def keptFrame (i : ℕ) (enrollFrameCount : Int32) : List EnrollLabel :=
  countedFrame i ++ [.hal (.session i (.worker 0 ⟨VendorCode.keep, 0, enrollFrameCount⟩))] ++
    List.replicate 3 (.hal (.session i (.worker 0 noReply)))

/-- A session of the user starts to enrol. -/
def startedEnrollment (i : ℕ) (userId : Int32) : List EnrollLabel :=
  [.hal (.createSession 1008 userId), .hal (.session i (.enroll .started))]

/-- Four frames of an enrolment of user 0, and then the first one of user 10. -/
def leftoverCount : List EnrollLabel :=
  startedEnrollment 0 0 ++ ([1, 2, 3, 4].flatMap (keptFrame 0)) ++ startedEnrollment 1 10 ++
    countedFrame 1

/-- Five frames of one enrolment. -/
def ownFrames : List EnrollLabel :=
  startedEnrollment 0 0 ++ ([1, 2, 3, 4].flatMap (keptFrame 0)) ++ countedFrame 0

instance (f : CountedFrame) : Decidable f.IsOwn := inferInstanceAs (Decidable (_ ∧ _))

instance (x : FrameHistory) (f : CountedFrame) : Decidable (x.LastFor f) :=
  inferInstanceAs (Decidable (∃ last ∈ x.counted.head?, _ ∧ _))

instance (x : FrameHistory) (c : EnrollHal) :
    (l : EnrollLabel) → Decidable (x.CountsOwnFrames c l)
  | .counts i k => inferInstanceAs (Decidable (∀ f ∈ x.frameOf c.hal i k, f.IsOwn ∧ (_ ∨ _)))
  | .testsCount i k => inferInstanceAs (Decidable (∀ f ∈ x.frameOf c.hal i k, _ ∨ _))
  | .hal _ | .passesTest _ _ | .readsCount _ _ => .isTrue trivial

instance (x : FrameHistory) (i : ℕ) (s : Session) (operation : Option ℕ) :
    Decidable (x.Suffices i s operation) :=
  inferInstanceAs (Decidable (∃ n ∈ operation, _ ∧ _))

/-- The session with its worker, if that is about to save a face. -/
def savingWorker (c : EnrollHal) (i : ℕ) : Option (Session × Worker) :=
  (c.hal.live i).bind fun s => (s.workers[0]?).bind fun w =>
    if w.stage = .enroll ∧ c.place i = .saves then some (s, w) else none

theorem exists_completion (C : LawfulCrypto) {v : EnrollStub} {i : ℕ} {s : Session} {w : Worker}
    (h : savingWorker v.toEnrollHal i = some (s, w)) :
    v.hal.live i = some s ∧ s.workers[0]? = some w ∧ w.stage = .enroll ∧
      ∃ reply v', reply.res = VendorCode.faceOk ∧
        enrollStep (storageEnv C.toCrypto encryptionMayFail) v
          (.hal (.session i (.worker 0 reply))) v' := by
  obtain ⟨s', hs, hsome⟩ := Option.bind_eq_some_iff.mp h
  obtain ⟨w', hw, hguard⟩ := Option.bind_eq_some_iff.mp hsome
  split_ifs at hguard with hsaving
  obtain ⟨hstage, hsaves⟩ := hsaving
  obtain ⟨rfl, rfl⟩ := Prod.mk.inj (Option.some.inj hguard)
  obtain ⟨⟨reply, embeddings⟩, disk, hrun⟩ :=
    Program.exists_run (storageEnv_total C.toCrypto encryptionMayFail_ne_always)
      (FaceEngineStub.saveEnrollment v.enrolledEmbeddings s'.userId) v.disk
  have hok : reply.res = VendorCode.faceOk := hrun.wp (wp_saveEnrollment_ok C)
  refine ⟨hs, hw, hstage, reply,
    ⟨v.afterStep (.session i (.worker 0 reply)) _, embeddings, disk⟩, hok,
    Option.map_eq_some_iff.mpr ⟨_, Hal.step_workerStep hs hw reply, rfl⟩, s', hs, w', hw, ?_⟩
  unfold WorkerRun EnrollRun
  rw [hstage, hsaves]
  exact hrun

end EnrollStub

end FaceHal
