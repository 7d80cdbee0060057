import FaceHal.Camera2NdkBackend
import FaceHal.ResourceOwnership

/-!
# What opening the camera does

Whatever the NDK answers, `openCamera` keeps account of the objects: those it has
created are in the fields, apart from the readers that it has deleted itself. The
fields that other threads decide on stay as they were. When it fails the failure is
one of the camera codes.
-/
namespace FaceHal

namespace CameraHandles

def set (h : CameraHandles) (k : HandleKind) (n : ℕ) : CameraHandles :=
  match k with
  | .manager => { h with mgr := some n }
  | .reader => { h with rdr := some n }
  | .device => { h with dev := some n }
  | .output => { h with out := some n }
  | .container => { h with outC := some n }
  | .session => { h with sess := some n }
  | .request => { h with req := some n }
  | .target => { h with tgt := some n }

@[simp] theorem get_set (h : CameraHandles) (k j : HandleKind) (n : ℕ) :
    (h.set k n).get j = if j = k then some n else h.get j := by
  cases k <;> cases j <;> rfl

theorem inOrder_perm {h h' : CameraHandles} {k : HandleKind} {n : ℕ} (hnone : h.get k = none)
    (hk : h'.get k = some n) (helse : ∀ j, j ≠ k → h'.get j = h.get j) :
    h'.inOrder.Perm (⟨k, n⟩ :: h.inOrder) := by
  have hmem : k ∈ releaseOrder := by cases k <;> decide
  have hnodup : releaseOrder.Nodup := by decide
  obtain ⟨l, m, horder⟩ := List.append_of_mem hmem
  rw [horder, List.nodup_middle, List.nodup_cons, List.mem_append, not_or] at hnodup
  obtain ⟨⟨hl, hm⟩, -⟩ := hnodup
  have hsame : ∀ l' : List HandleKind, k ∉ l' →
      l'.filterMap (fun j => (h'.get j).map (Handle.mk j)) =
        l'.filterMap fun j => (h.get j).map (Handle.mk j) := by
    intro l' hk'
    refine List.filterMap_congr fun j hj => ?_
    rw [helse j fun heq => hk' (heq ▸ hj)]
  unfold inOrder
  rw [horder, List.filterMap_append, List.filterMap_append, List.filterMap_cons,
    List.filterMap_cons, hk, hnone, hsame l hl, hsame m hm]
  exact List.perm_middle

theorem mem_inOrder {h : CameraHandles} {x : Handle} :
    x ∈ h.inOrder ↔ h.get x.kind = some x.id := by
  have hmem : ∀ k : HandleKind, k ∈ releaseOrder := by
    intro k
    cases k <;> decide
  unfold inOrder
  rw [List.mem_filterMap]
  constructor
  · rintro ⟨k, -, hk⟩
    obtain ⟨n, hn, rfl⟩ := Option.map_eq_some_iff.mp hk
    exact hn
  · intro hget
    exact ⟨x.kind, hmem _, Option.map_eq_some_iff.mpr ⟨x.id, hget, rfl⟩⟩

end CameraHandles

/-- Who holds an object: the fields, or the locals of a teardown on some thread. -/
def holdings (h : CameraHandles) (rest : ThreadId → List Handle) : Option ThreadId → List Handle
  | none => h.inOrder
  | some t => rest t

/-- The codes that `start` notes when it fails. -/
def cameraFailures : List Int32 :=
  [VendorCode.cameraNoDevice, VendorCode.cameraIdSelectFailed, VendorCode.cameraManagerFailed,
    VendorCode.cameraOpenFailed, VendorCode.cameraImageReaderFailed,
    VendorCode.cameraWindowFailed, VendorCode.cameraSessionFailed,
    VendorCode.cameraRequestFailed, VendorCode.cameraStreamingFailed]

theorem zero_not_mem_cameraFailures : 0 ∉ cameraFailures := by decide

/-- The objects of the NDK while `rest` is held by teardowns in progress. -/
structure Accounted (h : CameraHandles) (rest : ThreadId → List Handle) (w : Ndk) : Prop where
  owned : Owned (holdings h rest) w.created w.released
  numbered : ∀ x ∈ w.created, x.id < w.created.length

/-- What the NDK has done since: objects are created and released, none comes back. -/
structure NdkGrown (w₀ w : Ndk) : Prop where
  created : w₀.created <+: w.created
  released : ∀ x ∈ w₀.released, x ∈ w.released
  kept : ∀ x ∈ w₀.created, x ∈ w.released → x ∈ w₀.released

theorem NdkGrown.refl (w : Ndk) : NdkGrown w w := ⟨List.prefix_rfl, fun _ h => h, fun _ _ h => h⟩

namespace CameraBackend
open Program

/-- What `openCamera` does not touch. -/
structure Undisturbed (b₀ b : CameraBackend) : Prop where
  inCallback : b.inCallback = b₀.inCallback
  isStopping : b.isStopping = b₀.isStopping
  callbackThreadId : b.callbackThreadId = b₀.callbackThreadId
  /-- The flag is cleared before there is a session to be closed. -/
  closed : b.handles.sess = none ∧ b.sessionClosed = b₀.sessionClosed ∧ b.closedBy = b₀.closedBy ∨
    b.sessionClosed = false ∧ b.closedBy = []

/-- Opening has got this far, and the fields hold objects of these kinds at most. -/
structure Opening (rest : ThreadId → List Handle) (b₀ : CameraBackend) (w₀ : Ndk)
    (held : List HandleKind) (b : CameraBackend) (w : Ndk) : Prop where
  undisturbed : Undisturbed b₀ b
  isRunning : b.isRunning = false
  only : ∀ k, b.handles.get k ≠ none → k ∈ held
  accounted : Accounted b.handles rest w
  grown : NdkGrown w₀ w
  fresh : ∀ x ∈ b.handles.inOrder, x ∉ w₀.created
  streaming : w.streaming = w₀.streaming

/-- How opening ends. -/
structure Opened (rest : ThreadId → List Handle) (b₀ : CameraBackend) (w₀ : Ndk)
    (out : CameraBackend × Bool) (w : Ndk) : Prop where
  undisturbed : Undisturbed b₀ out.1
  isRunning : out.1.isRunning = out.2
  accounted : Accounted out.1.handles rest w
  grown : NdkGrown w₀ w
  streaming : w.streaming = (if out.2 then out.1.handles.rdr.toList else []) ++ w₀.streaming
  failure : out.2 = false → out.1.lastStartFailure ∈ cameraFailures

section steps
variable {rest : ThreadId → List Handle} {b₀ b : CameraBackend} {w₀ w : Ndk}
variable {held : List HandleKind} {k : HandleKind}

theorem Opening.create (h : Opening rest b₀ w₀ held b w) (hk : k ∉ held)
    (hclosed : k = .session → b.sessionClosed = false ∧ b.closedBy = []) :
    Opening rest b₀ w₀ (k :: held) { b with handles := b.handles.set k w.created.length }
      { w with created := w.created ++ [⟨k, w.created.length⟩] } := by
  have hnone : b.handles.get k = none := not_not.mp fun hne => hk (h.only k hne)
  have hnew : (⟨k, w.created.length⟩ : Handle) ∉ w.created := fun hmem =>
    absurd (h.accounted.numbered _ hmem) (lt_irrefl _)
  have hperm : (b.handles.set k w.created.length).inOrder.Perm
      (⟨k, w.created.length⟩ :: b.handles.inOrder) := by
    refine CameraHandles.inOrder_perm hnone (by simp) fun j hj => ?_
    rw [CameraHandles.get_set, if_neg hj]
  have hbefore : ∀ x ∈ w₀.created, x ∈ w.created := fun x hx => h.grown.created.subset hx
  refine ⟨⟨h.undisturbed.inCallback, h.undisturbed.isStopping, h.undisturbed.callbackThreadId,
    ?_⟩, h.isRunning, ?_, ⟨?_, ?_⟩, ⟨?_, h.grown.released, h.grown.kept⟩, ?_, h.streaming⟩
  · by_cases hs : k = .session
    · exact .inr (hclosed hs)
    · refine h.undisturbed.closed.imp_left fun hleft => ⟨?_, hleft.2⟩
      have hget := CameraHandles.get_set b.handles k .session w.created.length
      rw [if_neg (Ne.symm hs)] at hget
      exact hget.trans hleft.1
  · intro j hj
    by_cases hjk : j = k
    · exact hjk ▸ List.mem_cons_self
    · rw [CameraHandles.get_set, if_neg hjk] at hj
      exact List.mem_cons_of_mem _ (h.only j hj)
  · refine h.accounted.owned.create (o := none) hnew hperm ?_
    rintro (_ | t) ht
    · exact absurd rfl ht
    · rfl
  · intro x hx
    rw [List.length_append, List.length_singleton]
    rcases List.mem_append.mp hx with hx | hx
    · exact Nat.lt_succ_of_lt (h.accounted.numbered x hx)
    · rw [List.mem_singleton.mp hx]
      exact Nat.lt_succ_self _
  · exact h.grown.created.trans (List.prefix_append _ _)
  · intro x hx
    rcases List.mem_cons.mp (hperm.mem_iff.mp hx) with rfl | hx
    · exact fun hmem => hnew (hbefore _ hmem)
    · exact h.fresh x hx

/-- `openCamera` deletes the reader that it has just made. -/
theorem Opening.deleteReader {n : ℕ} (h : Opening rest b₀ w₀ (.reader :: held) b w)
    (hrdr : b.handles.rdr = some n) :
    Opening rest b₀ w₀ held { b with handles := { b.handles with rdr := none, win := false } }
      { w with released := w.released ++ [⟨.reader, n⟩] } := by
  have hsame : ∀ j, j ≠ .reader → b.handles.get j =
      ({ b.handles with rdr := none, win := false } : CameraHandles).get j := by
    intro j hj
    cases j with
    | reader => exact absurd rfl hj
    | _ => rfl
  have hperm : b.handles.inOrder.Perm (⟨.reader, n⟩ ::
      ({ b.handles with rdr := none, win := false } : CameraHandles).inOrder) :=
    CameraHandles.inOrder_perm rfl hrdr hsame
  have hheld : (⟨.reader, n⟩ : Handle) ∈ b.handles.inOrder := hperm.mem_iff.mpr List.mem_cons_self
  refine ⟨⟨h.undisturbed.inCallback, h.undisturbed.isStopping, h.undisturbed.callbackThreadId,
    h.undisturbed.closed⟩, h.isRunning, ?_, ⟨?_, h.accounted.numbered⟩,
    ⟨h.grown.created, ?_, ?_⟩, ?_, h.streaming⟩
  · intro j hj
    have hne : j ≠ .reader := by
      rintro rfl
      exact hj rfl
    exact (List.mem_cons.mp (h.only j (hsame j hne ▸ hj))).resolve_left hne
  · refine h.accounted.owned.release (o := none) hperm ?_
    rintro (_ | t) ht
    · exact absurd rfl ht
    · rfl
  · intro x hx
    exact List.mem_append_left _ (h.grown.released x hx)
  · intro x hx hr
    rcases List.mem_append.mp hr with hr | hr
    · exact h.grown.kept x hx hr
    · rw [List.mem_singleton.mp hr] at hx
      exact absurd hx (h.fresh _ hheld)
  · intro x hx
    exact h.fresh x (hperm.mem_iff.mpr (List.mem_cons_of_mem _ hx))

theorem Opening.window (h : Opening rest b₀ w₀ held b w) (win : Bool) :
    Opening rest b₀ w₀ held { b with handles := { b.handles with win := win } } w :=
  ⟨⟨h.undisturbed.inCallback, h.undisturbed.isStopping, h.undisturbed.callbackThreadId,
    h.undisturbed.closed⟩, h.isRunning, h.only, ⟨h.accounted.owned, h.accounted.numbered⟩,
    h.grown, h.fresh, h.streaming⟩

theorem Opening.clearClosed (h : Opening rest b₀ w₀ held b w) :
    Opening rest b₀ w₀ held { b with sessionClosed := false, closedBy := [] } w :=
  ⟨⟨h.undisturbed.inCallback, h.undisturbed.isStopping, h.undisturbed.callbackThreadId,
    .inr ⟨rfl, rfl⟩⟩, h.isRunning, h.only, h.accounted, h.grown, h.fresh, h.streaming⟩

theorem Opening.failed (h : Opening rest b₀ w₀ held b w) {vendorCode : Int32}
    (hcode : vendorCode ∈ cameraFailures) :
    Opened rest b₀ w₀ ({ b with lastStartFailure := vendorCode }, false) w :=
  ⟨⟨h.undisturbed.inCallback, h.undisturbed.isStopping, h.undisturbed.callbackThreadId,
    h.undisturbed.closed⟩, h.isRunning, h.accounted, h.grown, h.streaming, fun _ => hcode⟩

end steps

section rules
variable {rest : ThreadId → List Handle} {b₀ b : CameraBackend} {w₀ w : Ndk}
variable {held : List HandleKind} {α : Type}

theorem wp_create {k : HandleKind} {given : List (HandleKind × Option ℕ)}
    {next : Option ℕ → Program NdkI α} {Q : α → Ndk → Prop}
    (hnone : (next none).wp ndkEnv Q w)
    (hsome : (next (some w.created.length)).wp ndkEnv Q
      { w with created := w.created ++ [⟨k, w.created.length⟩] }) :
    (Program.call (I := NdkI) (.create k given) next).wp ndkEnv Q w := by
  rintro r w' (⟨rfl, rfl⟩ | ⟨rfl, rfl⟩)
  · exact hnone
  · exact hsome

theorem wp_ask {c : NdkCall} {next : c.Reply → Program NdkI α} {Q : α → Ndk → Prop}
    (hc : ∀ r w', ndkEnv c w r w' → w' = w) (h : ∀ r, (next r).wp ndkEnv Q w) :
    (Program.call (I := NdkI) c next).wp ndkEnv Q w := by
  intro r w' hcall
  obtain rfl := hc r w' hcall
  exact h r

theorem wp_probeCamera {timeoutMs : ℕ} {Q : Option Int32 → Ndk → Prop} (hnone : Q none w)
    (hsome : ∀ vendorCode ∈ cameraFailures, Q (some vendorCode) w) :
    (probeCamera timeoutMs).wp ndkEnv Q w := by
  unfold probeCamera ndk
  rw [perform_bind]
  refine wp_ask (fun _ _ h => h) fun found => ?_
  cases found with
  | false => exact hsome _ (by decide)
  | true =>
      refine wp_ask (fun _ _ h => h) fun selected => ?_
      cases selected with
      | false => exact hsome _ (by decide)
      | true => exact hnone

/-- The loop ends with an open device and its reader, or with a failure noted. -/
theorem wp_openDevice {mgr retries : ℕ} {Q : CameraBackend × Bool → Ndk → Prop}
    (h : Opening rest b₀ w₀ [.manager] b w)
    (hopen : ∀ b' w', Opening rest b₀ w₀ [.device, .reader, .manager] b' w' → Q (b', true) w')
    (hfail : ∀ b' w', Opened rest b₀ w₀ (b', false) w' → Q (b', false) w') :
    (openDevice mgr retries b).wp ndkEnv Q w := by
  induction retries using Nat.strong_induction_on generalizing b w with
  | _ retries ih =>
      unfold openDevice ndk
      rw [perform_bind]
      refine wp_create (hfail _ _ (h.failed (by decide))) ?_
      have hrdr := h.create (k := .reader) (by decide) nofun
      refine wp_ask (fun _ _ hcall => hcall) fun gotWindow => ?_
      cases gotWindow with
      | false =>
          rintro - _ rfl
          exact hfail _ _ ((hrdr.deleteReader rfl).failed (by decide))
      | true =>
          have hwin := hrdr.window true
          refine wp_create ?_ (hopen _ _ (hwin.create (k := .device) (by decide) nofun))
          rintro - _ rfl
          have hagain := hwin.deleteReader rfl
          cases retries with
          | zero => exact hfail _ _ (hagain.failed (by decide))
          | succ retries =>
              refine wp_ask (fun _ _ hcall => hcall) fun _ => ?_
              change (probeCamera 8000 >>= _).wp ndkEnv Q _
              rw [wp_bind]
              refine wp_probeCamera ?_ ?_
              · exact ih retries (Nat.lt_succ_self retries) hagain
              · intro vendorCode hcode
                exact hfail _ _ (hagain.failed hcode)

theorem wp_openSession {Q : CameraBackend × Bool → Ndk → Prop}
    (h : Opening rest b₀ w₀ [.device, .reader, .manager] b w)
    (hQ : ∀ out w', Opened rest b₀ w₀ out w' → Q out w') :
    (openSession b).wp ndkEnv Q w := by
  unfold openSession ndk
  rw [perform_bind]
  refine wp_create (hQ _ _ (h.failed (by decide))) ?_
  have hout := h.create (k := .output) (by decide) nofun
  refine wp_create (hQ _ _ (hout.failed (by decide))) ?_
  have houtC := hout.create (k := .container) (by decide) nofun
  refine wp_ask (fun _ _ hcall => hcall) fun added => ?_
  cases added with
  | false => exact hQ _ _ (houtC.failed (by decide))
  | true =>
      have hclear := houtC.clearClosed
      refine wp_create (hQ _ _ (hclear.failed (by decide))) ?_
      have hsess := hclear.create (k := .session) (by decide) fun _ => ⟨rfl, rfl⟩
      refine wp_create (hQ _ _ (hsess.failed (by decide))) ?_
      have hreq := hsess.create (k := .request) (by decide) nofun
      refine wp_create (hQ _ _ (hreq.failed (by decide))) ?_
      have htgt := hreq.create (k := .target) (by decide) nofun
      refine wp_ask (fun _ _ hcall => hcall) fun added => ?_
      cases added with
      | false => exact hQ _ _ (htgt.failed (by decide))
      | true =>
          rintro _ _ (⟨rfl, rfl⟩ | ⟨rfl, rfl⟩)
          · exact hQ _ _ (htgt.failed (by decide))
          · refine hQ _ _ ⟨⟨htgt.undisturbed.inCallback, htgt.undisturbed.isStopping,
              htgt.undisturbed.callbackThreadId, htgt.undisturbed.closed⟩, rfl,
              ⟨htgt.accounted.owned, htgt.accounted.numbered⟩,
              ⟨htgt.grown.created, htgt.grown.released, htgt.grown.kept⟩, ?_, nofun⟩
            exact congrArg _ htgt.streaming

theorem wp_openDevice_openSession (h : Opening rest b₀ w₀ [.manager] b w)
    (mgr retries : ℕ) :
    (do
      let (b, opened) ← openDevice mgr retries b
      if opened then openSession b else return (b, false)).wp ndkEnv (Opened rest b₀ w₀) w := by
  rw [wp_bind]
  refine wp_openDevice h ?_ ?_
  · intro b' w' hopened
    exact wp_openSession hopened fun _ _ hout => hout
  · intro b' w' hfailed
    exact hfailed

/-- Opening keeps account of the objects and ends open or with a failure noted. -/
theorem wp_openCamera {cb : Bool} (hrun : b₀.isRunning = false) (hempty : b₀.handles = {})
    (h : Accounted {} rest w₀) :
    (openCamera b₀ cb).wp ndkEnv (Opened rest b₀ w₀) w₀ := by
  have hstart : Opening rest b₀ w₀ [] { b₀ with callback := cb, lastStartFailure := 0 } w₀ := by
    refine ⟨⟨rfl, rfl, rfl, .inl ⟨?_, rfl, rfl⟩⟩, hrun, ?_, ?_, NdkGrown.refl w₀, ?_, rfl⟩
    · rw [hempty]
    · intro k hk
      rw [hempty] at hk
      cases k <;> exact absurd rfl hk
    · rw [hempty]
      exact h
    · rw [hempty]
      nofun
  unfold openCamera ndk
  rw [perform_bind]
  refine wp_create (hstart.failed (by decide)) ?_
  have hmgr := hstart.create (k := .manager) (by decide) nofun
  refine wp_ask (fun _ _ hcall => hcall) fun usedWarmId => ?_
  cases usedWarmId with
  | true => exact wp_openDevice_openSession hmgr _ 1
  | false =>
      change (probeCamera 10000 >>= _).wp ndkEnv (Opened rest b₀ w₀) _
      rw [wp_bind]
      refine wp_probeCamera (wp_openDevice_openSession hmgr _ 0) ?_
      intro vendorCode hcode
      exact hmgr.failed hcode

end rules

end CameraBackend
end FaceHal
