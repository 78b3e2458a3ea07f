import Mathlib.Data.Int.ConditionallyCompleteOrder
import Thornado.Lib.Concat
import Thornado.Lib.Grid
import Thornado.Lib.Transition
import Thornado.Client.WithdrawDialog

/-!
# The guard of a withdraw

A withdraw is `Sound` if its raw amount is the entered text read with the decimals of its own
product, and a guard that was active is the largest raw amount within a maximum that the exchange
reported for that product. Selecting an asset changes the product at once, while the metadata and
the maximum of the asset before stay until the new ones arrive; `Own` says that the dialog holds
none of another asset.

* `withdraw_guard_own`: what holds in every run whose submits are made in `Own` states.
* `own_of_settled`: when the request of the selected asset has ended, the state is `Own`.
* `reach_of_settled`: so it suffices to wait with each submit until then.
* `withdraw_guard_of_previous`: a run whose withdraws are read or guarded as another asset's.
-/

namespace Client.Withdraw

variable {services : Services} {h h' : History}

/-- The metadata and the finite maximum that the dialog holds are those of the selected asset. -/
def History.Own (h : History) : Prop :=
  ∀ m ∈ h.dialog.meta_, h.dialog.productId = some m.productId ∧
    ∀ v ∈ h.dialog.maxWithdraw, (bnToBigInt v).isSome → h.maxOf = h.dialog.productId

/-- A submit is made in an `Own` state. -/
def SubmitsOwn (h : History) : Event → Prop
  | .submit _ => h.Own
  | _ => True

/-- `raw` units of a token with `d` decimals are at most `x18` of the engine. -/
def Within (x18 : Int) (d : Nat) (raw : Int) : Prop := raw * 10 ^ 18 ≤ x18 * 10 ^ d

/-- The withdraw of `raw` that passed the guard `g`, for the product `p` with `d` decimals. -/
def Guarded (reports : List (Nat × EngineValue)) (p d : Nat) (raw g : Int) : Prop :=
  ∃ v m, (p, v) ∈ reports ∧ bnToBigInt v = some m ∧
    (0 ≤ m → Within m d raw ∧ IsGreatest {r | Within m d r} g)

/-- An executed withdraw is read and guarded as its own product's. -/
def Sound (services : Services) (reports : List (Nat × EngineValue)) (w : Submission) : Prop :=
  ∃ m, getSpotCollateralMeta services w.args.productId = .ok m ∧
    parseHumanAmount services w.amount m.decimals = .ok w.args.amount ∧
    ∀ g ∈ w.maxTokenRaw, Guarded reports w.args.productId m.decimals w.args.amount g

/-- The maximum that the dialog offers for the selected asset. -/
def OfferSound (services : Services) (h : History) : Prop :=
  ∀ p ∈ h.dialog.productId, ∀ g ∈ h.dialog.maxTokenRaw,
    ∃ m, getSpotCollateralMeta services p = .ok m ∧ Guarded h.reports p m.decimals g g

/-! ## The guard -/

theorem Within.mono {x18 raw g : Int} {d : Nat} (hg : Within x18 d g) (hle : raw ≤ g) :
    Within x18 d raw :=
  Int.le_trans (Int.mul_le_mul_of_nonneg_right hle (by decide)) hg

/-- Truncation is rounding down as long as the maximum is not negative. -/
theorem engineX18ToTokenRaw_isGreatest {x18 : Int} (hx : 0 ≤ x18) (d : Nat) :
    IsGreatest {raw | Within x18 d raw} (engineX18ToTokenRaw x18 d) := by
  have hscaled : 0 ≤ x18 * 10 ^ d := Int.mul_nonneg hx (Int.pow_nonneg (by decide))
  unfold engineX18ToTokenRaw
  rw [Int.tdiv_eq_ediv_of_nonneg hscaled]
  exact Grid.isGreatest_ediv (by decide)

theorem getSpotCollateralMeta_productId {p : Nat} {m : SpotCollateralMeta}
    (h : getSpotCollateralMeta services p = .ok m) : m.productId = p := by
  unfold getSpotCollateralMeta at h
  split at h
  · split at h
    · cases h
    · cases h
      rfl
  · cases h

theorem Guarded.mono {reports reports' : List (Nat × EngineValue)} {p d : Nat} {raw g : Int}
    (hg : Guarded reports p d raw g) (hr : reports ⊆ reports') : Guarded reports' p d raw g := by
  obtain ⟨v, m, hv, hm⟩ := hg
  exact ⟨v, m, hr hv, hm⟩

theorem Sound.mono {reports reports' : List (Nat × EngineValue)} {w : Submission}
    (hw : Sound services reports w) (hr : reports ⊆ reports') : Sound services reports' w := by
  obtain ⟨m, hm, hparse, hguard⟩ := hw
  exact ⟨m, hm, hparse, fun g hg => (hguard g hg).mono hr⟩

/-! ## What the dialog holds -/

/-- The metadata that arrive are the requested product's; the rest stays or is cleared. -/
theorem Dialog.onMetadata_spec (services : Services) (s : Dialog) (i : Nat) (r : Request)
    (failure : Option String) :
    (∀ m ∈ (s.onMetadata services i r failure).meta_,
      m ∈ s.meta_ ∨ getSpotCollateralMeta services m.productId = .ok m) ∧
    (∀ v ∈ (s.onMetadata services i r failure).maxWithdraw, v ∈ s.maxWithdraw) ∧
    (s.onMetadata services i r failure).pending = s.pending := by
  unfold onMetadata
  split
  · exact ⟨fun m hm => .inl hm, fun v hv => hv, rfl⟩
  · split
    · rename_i m hm
      have hread : ∀ m' ∈ some m, m' ∈ s.meta_ ∨
          getSpotCollateralMeta services m'.productId = .ok m' := by
        intro m' hm'
        cases hm'
        cases failure with
        | some message => cases hm
        | none => exact .inr (by rwa [getSpotCollateralMeta_productId hm])
      split
      · exact ⟨hread, fun v hv => hv, rfl⟩
      · exact ⟨hread, fun v hv => (nomatch hv), rfl⟩
    · exact ⟨fun m hm => (nomatch hm), fun v hv => hv, rfl⟩

/-- The metadata and the maximum that the dialog holds were reported, each for some product, and
the withdraws that passed their checks are sound. -/
structure Held (services : Services) (h : History) : Prop where
  meta_ : ∀ m ∈ h.dialog.meta_, getSpotCollateralMeta services m.productId = .ok m
  max : ∀ v ∈ h.dialog.maxWithdraw, ∃ p, h.maxOf = some p ∧ (p, v) ∈ h.reports
  pending : ∀ w, h.dialog.pending = .readNSubmissions w → Sound services h.reports w
  executed : ∀ w ∈ h.executed, Sound services h.reports w

/-- A step that keeps the past, and holds no other maximum than before. -/
theorem Held.dialog (hh : Held services h) {s : Dialog}
    (hm : ∀ m ∈ s.meta_, getSpotCollateralMeta services m.productId = .ok m)
    (hmax : ∀ v ∈ s.maxWithdraw, v ∈ h.dialog.maxWithdraw)
    (hp : ∀ w, s.pending = .readNSubmissions w → Sound services h.reports w) :
    Held services { h with dialog := s } :=
  ⟨hm, fun v hv => hh.max v (hmax v hv), hp, hh.executed⟩

/-- The other fields play no part. -/
theorem Held.shown (hh : Held services h) (productId : Option Nat) (spotOptions : List Nat)
    (amount : String) (metaError error : Option String) (requests : List Request) :
    Held services { h with dialog := { h.dialog with
      productId := productId, spotOptions := spotOptions, amount := amount, metaError := metaError,
      error := error, requests := requests } } :=
  ⟨hh.meta_, hh.max, hh.pending, hh.executed⟩

/-- What an `Own` dialog offers, and any amount up to it. -/
theorem Held.guarded (hh : Held services h) (hown : h.Own) {m : SpotCollateralMeta} {p : Nat}
    {raw g : Int} (hm : h.dialog.meta_ = some m) (hp : h.dialog.productId = some p)
    (hg : h.dialog.maxTokenRaw = some g) (hraw : raw ≤ g) :
    Guarded h.reports p m.decimals raw g := by
  obtain ⟨v, hv, hg⟩ := Option.bind_eq_some_iff.1 hg
  obtain ⟨_, hm', hg⟩ := Option.bind_eq_some_iff.1 hg
  obtain ⟨x18, hx18, hg⟩ := Option.bind_eq_some_iff.1 hg
  cases hm.symm.trans hm'
  cases hg
  have hmaxOf : h.maxOf = some p := by
    rw [← hp]
    exact (hown m hm).2 v hv (by rw [hx18]; rfl)
  obtain ⟨q, hq, hreport⟩ := hh.max v hv
  cases hmaxOf.symm.trans hq
  refine ⟨v, x18, hreport, hx18, fun hx => ?_⟩
  have hgreatest := engineX18ToTokenRaw_isGreatest hx m.decimals
  exact ⟨Within.mono hgreatest.1 hraw, hgreatest⟩

theorem Held.own_meta (hh : Held services h) (hown : h.Own) {m : SpotCollateralMeta} {p : Nat}
    (hm : h.dialog.meta_ = some m) (hp : h.dialog.productId = some p) :
    getSpotCollateralMeta services p = .ok m := by
  cases hp.symm.trans (hown m hm).1
  exact hh.meta_ m hm

theorem Held.sound (hh : Held services h) (hown : h.Own) {wallet : Wallet} {w : Submission}
    (hw : h.dialog.runWithdraw services wallet = .ok w) : Sound services h.reports w := by
  obtain ⟨m, p, raw, hm, hp, hparse, hmax, rfl⟩ := Dialog.runWithdraw_eq_ok hw
  exact ⟨m, hh.own_meta hown hm hp, hparse, fun g hg => hh.guarded hown hm hp hg (hmax g hg)⟩

theorem Held.offer (hh : Held services h) (hown : h.Own) : OfferSound services h := by
  intro p hp g hg
  obtain ⟨v, hv, hg'⟩ := Option.bind_eq_some_iff.1 hg
  obtain ⟨m, hm, _⟩ := Option.bind_eq_some_iff.1 hg'
  exact ⟨m, hh.own_meta hown hm hp, hh.guarded hown hm hp hg (Int.le_refl g)⟩

/-! ## One step -/

theorem Held.setProductId (hh : Held services h) (p : Option Nat) (hasClient : Bool) :
    Held services { h with dialog := h.dialog.setProductId p hasClient } := by
  obtain hs | hs | ⟨_, _, hs⟩ := h.dialog.setProductId_cases p hasClient
  · rw [hs]
    exact hh
  · rw [hs]
    exact hh.shown ..
  · rw [hs]
    exact hh.shown ..

theorem Held.onMetadata (hh : Held services h) (i : Nat) (r : Request) (failure : Option String) :
    Held services { h with dialog := h.dialog.onMetadata services i r failure } := by
  obtain ⟨hmeta, hmax, hpending⟩ := h.dialog.onMetadata_spec services i r failure
  refine hh.dialog (fun m hm => (hmeta m hm).elim (hh.meta_ m) id) hmax fun w hw => ?_
  rw [hpending] at hw
  exact hh.pending w hw

theorem Held.onMaximum (hh : Held services h) (i : Nat) (r : Request)
    (answer : Except String EngineValue) : Held services (h.onMaximum i r answer) := by
  unfold History.onMaximum Dialog.onMaximum
  cases answer with
  | error message =>
    cases r.cancelled with
    | true => exact hh.shown ..
    | false => exact hh.dialog (fun m hm => nomatch hm) (fun v hv => hv) hh.pending
  | ok max =>
    have hsub : h.reports ⊆ h.reports ++ [(r.productId, max)] := List.subset_append_left ..
    have hp := fun w hw => (hh.pending w hw).mono hsub
    have he := fun w hw => (hh.executed w hw).mono hsub
    cases r.cancelled with
    | true =>
      refine ⟨hh.meta_, fun v hv => ?_, hp, he⟩
      obtain ⟨p, hmaxOf, hv⟩ := hh.max v hv
      exact ⟨p, hmaxOf, hsub hv⟩
    | false =>
      refine ⟨hh.meta_, fun v hv => ?_, hp, he⟩
      cases hv
      exact ⟨r.productId, rfl, List.mem_append_right _ (List.mem_singleton.2 rfl)⟩

theorem Held.onSubmit (hh : Held services h) (hown : h.Own) (wallet : Wallet) :
    Held services { h with dialog := h.dialog.onSubmit services wallet } := by
  have hcleared : Held services { h with dialog := { h.dialog with error := none } } := hh.shown ..
  unfold Dialog.onSubmit
  dsimp only
  split
  · exact hh.shown ..
  · split
    · exact hh.shown ..
    · split
      · rename_i w hw
        refine hh.dialog hh.meta_ (fun v hv => hv) fun w' hw' => ?_
        cases hw'
        exact hcleared.sound hown hw
      · exact hh.shown ..

theorem Held.step (hh : Held services h) {e : Event} (hok : SubmitsOwn h e)
    (hs : step services h e = some h') : Held services h' := by
  cases step_cases hs with
  | shown spotOptions amount metaError error => exact hh.shown ..
  | selected spotOptions productId hasClient =>
    have hlist : Held services { h with dialog := { h.dialog with spotOptions := spotOptions } } :=
      hh.shown ..
    exact hlist.setProductId productId hasClient
  | metadata failure hr hphase => exact hh.onMetadata _ _ failure
  | maximum answer hr hphase => exact hh.onMaximum _ _ answer
  | submitted wallet => exact hh.onSubmit hok wallet
  | executed w hw =>
    refine ⟨hh.meta_, hh.max, fun _ hw' => (nomatch hw'), fun w' hw' => ?_⟩
    obtain hw' | hw' := List.mem_append.1 hw'
    · exact hh.executed w' hw'
    · cases List.mem_singleton.1 hw'
      exact hh.pending w hw
  | failed message => exact hh.dialog hh.meta_ (fun v hv => hv) fun w hw => nomatch hw
  | closed =>
    exact hh.dialog (fun m hm => nomatch hm) (fun v hv => nomatch hv) fun w hw => nomatch hw

theorem Held.start : Held services History.start :=
  ⟨fun _ hm => (nomatch hm), fun _ hv => (nomatch hv), fun _ hw => (nomatch hw),
    fun _ hw => (nomatch hw)⟩

/-! ## The request of the selected asset -/

/-- Request `i` is not cancelled. -/
def Dialog.Live (s : Dialog) (i : Nat) (r : Request) : Prop :=
  s.requests[i]? = some r ∧ r.cancelled = false

/-- A request that is not cancelled is the last one, of the selected product. With its metadata,
the dialog holds none of another product, and nothing of another product after its maximum. -/
structure Following (h : History) : Prop where
  last : ∀ i r, h.dialog.Live i r →
    i + 1 = h.dialog.requests.length ∧ h.dialog.productId = some r.productId
  maximum : ∀ i r, h.dialog.Live i r → r.phase = .maximum →
    ∀ m ∈ h.dialog.meta_, m.productId = r.productId
  finished : ∀ i r, h.dialog.Live i r → r.phase = .finished → h.Own

theorem Dialog.not_live_cancelRequests {s : Dialog} {i : Nat} {r : Request} :
    ¬ s.cancelRequests.Live i r := by
  rintro ⟨hr, hlive⟩
  simp only [cancelRequests, List.getElem?_map, Option.map_eq_some_iff] at hr
  obtain ⟨_, _, rfl⟩ := hr
  cases hlive

theorem Dialog.live_setPhase {s : Dialog} {i j : Nat} {phase : Phase} {r' : Request}
    (h : (s.setPhase i phase).Live j r') :
    ∃ r, s.Live j r ∧ (i ≠ j ∧ r' = r ∨ i = j ∧ r' = { r with phase := phase }) := by
  obtain ⟨hr, hlive⟩ := h
  simp only [setPhase, List.getElem?_modify, Option.map_eq_map, Option.map_eq_some_iff] at hr
  obtain ⟨r, hr, rfl⟩ := hr
  by_cases hij : i = j
  · rw [if_pos hij] at hlive ⊢
    exact ⟨r, ⟨hr, hlive⟩, .inr ⟨hij, rfl⟩⟩
  · rw [if_neg hij] at hlive ⊢
    exact ⟨r, ⟨hr, hlive⟩, .inl ⟨hij, rfl⟩⟩

/-- After the product changed, only its own request is left, and it waits for the metadata. -/
theorem Dialog.live_setProductId (s : Dialog) (p : Option Nat) (hasClient : Bool) :
    s.setProductId p hasClient = s ∨
    ∀ i r, (s.setProductId p hasClient).Live i r →
      i + 1 = (s.setProductId p hasClient).requests.length ∧
      (s.setProductId p hasClient).productId = some r.productId ∧ r.phase = .metadata := by
  obtain hs | hs | ⟨p, rfl, hs⟩ := s.setProductId_cases p hasClient
  · exact .inl hs
  · rw [hs]
    exact .inr fun i r hr => (not_live_cancelRequests hr).elim
  · rw [hs]
    refine .inr fun i r hr => ?_
    obtain ⟨hr, hlive⟩ := hr
    dsimp only at hr
    rcases Concat.getElem?_cases hr with ⟨hr, -⟩ | ⟨rfl, rfl⟩
    · exact (not_live_cancelRequests ⟨hr, hlive⟩).elim
    · refine ⟨?_, rfl, rfl⟩
      rw [List.length_append, List.length_singleton]

theorem Following.setProductId (hf : Following h) (p : Option Nat) (hasClient : Bool) :
    Following { h with dialog := h.dialog.setProductId p hasClient } := by
  obtain hs | hnew := h.dialog.live_setProductId p hasClient
  · rw [hs]
    exact hf
  · refine ⟨fun i r hr => ?_, fun i r hr hphase => ?_, fun i r hr hphase => ?_⟩
    · obtain ⟨hlast, hproduct, _⟩ := hnew i r hr
      exact ⟨hlast, hproduct⟩
    · cases hphase.symm.trans (hnew i r hr).2.2
    · cases hphase.symm.trans (hnew i r hr).2.2

/-- No request is left. -/
theorem Following.of_cancelled (h : ∀ i r, ¬ h'.dialog.Live i r) : Following h' :=
  ⟨fun i r hr => (h i r hr).elim, fun i r hr => (h i r hr).elim, fun i r hr => (h i r hr).elim⟩

/-- A cancelled request goes on. -/
theorem Following.skip (hf : Following h) {i : Nat} {r : Request}
    (hr : h.dialog.requests[i]? = some r) (hcancelled : r.cancelled = true) (phase : Phase) :
    Following { h with dialog := h.dialog.setPhase i phase } := by
  have hlive : ∀ j r', (h.dialog.setPhase i phase).Live j r' → h.dialog.Live j r' := by
    intro j r' hr'
    obtain ⟨r'', hr'', ⟨_, rfl⟩ | ⟨rfl, _⟩⟩ := Dialog.live_setPhase hr'
    · exact hr''
    · cases hr.symm.trans hr''.1
      exact absurd hr''.2 (by rw [hcancelled]; decide)
  refine ⟨fun j r' hr' => ?_, fun j r' hr' => hf.maximum j r' (hlive j r' hr'),
    fun j r' hr' => hf.finished j r' (hlive j r' hr')⟩
  obtain ⟨hlast, hp⟩ := hf.last j r' (hlive j r' hr')
  exact ⟨by rw [hlast]; exact (List.length_modify ..).symm, hp⟩

/-- The request of the selected product goes on. -/
theorem Following.advance (hf : Following h) {i : Nat} {r : Request} {phase : Phase}
    (hr : h.dialog.Live i r)
    (hrequests : h'.dialog.requests = (h.dialog.setPhase i phase).requests)
    (hp : h'.dialog.productId = h.dialog.productId)
    (hmaximum : phase = .maximum → ∀ m ∈ h'.dialog.meta_, m.productId = r.productId)
    (hfinished : phase = .finished → h'.Own) : Following h' := by
  have honly : ∀ j r', h'.dialog.Live j r' → i = j ∧ r' = { r with phase := phase } := by
    intro j r' hr'
    have hset : (h.dialog.setPhase i phase).Live j r' := ⟨hrequests ▸ hr'.1, hr'.2⟩
    obtain ⟨r'', hr'', heq⟩ := Dialog.live_setPhase hset
    have hi := (hf.last i r hr).1
    have hj := (hf.last j r'' hr'').1
    obtain rfl : i = j := by omega
    cases hr.1.symm.trans hr''.1
    obtain ⟨hne, _⟩ | heq := heq
    · exact absurd rfl hne
    · exact heq
  refine ⟨fun j r' hr' => ?_, fun j r' hr' => ?_, fun j r' hr' => ?_⟩
  · obtain ⟨rfl, rfl⟩ := honly j r' hr'
    obtain ⟨hlast, hproduct⟩ := hf.last i r hr
    refine ⟨?_, by rw [hp, hproduct]⟩
    rw [hrequests, hlast]
    exact (List.length_modify ..).symm
  · obtain ⟨rfl, rfl⟩ := honly j r' hr'
    exact hmaximum
  · obtain ⟨rfl, rfl⟩ := honly j r' hr'
    exact hfinished

theorem Following.onMetadata (hf : Following h) {i : Nat} {r : Request}
    (hr : h.dialog.requests[i]? = some r) (failure : Option String) :
    Following { h with dialog := h.dialog.onMetadata services i r failure } := by
  unfold Dialog.onMetadata
  cases hcancelled : r.cancelled with
  | true => exact hf.skip hr hcancelled _
  | false =>
    have hproduct := (hf.last i r ⟨hr, hcancelled⟩).2
    split
    · contradiction
    · split
      · rename_i m hm
        have hown : m.productId = r.productId := by
          cases failure with
          | some message => cases hm
          | none => exact getSpotCollateralMeta_productId hm
        split
        · refine hf.advance ⟨hr, hcancelled⟩ rfl rfl (fun _ m' hm' => ?_) fun h => nomatch h
          cases hm'
          exact hown
        · refine hf.advance ⟨hr, hcancelled⟩ rfl rfl (fun h => nomatch h) fun _ m' hm' => ?_
          cases hm'
          exact ⟨by rw [hown]; exact hproduct, fun _ hv => nomatch hv⟩
      · exact hf.advance ⟨hr, hcancelled⟩ rfl rfl (fun h => nomatch h) fun _ _ hm => nomatch hm

theorem Following.onMaximum (hf : Following h) {i : Nat} {r : Request}
    (hr : h.dialog.requests[i]? = some r) (hphase : r.phase = .maximum)
    (answer : Except String EngineValue) : Following (h.onMaximum i r answer) := by
  unfold History.onMaximum Dialog.onMaximum
  cases hcancelled : r.cancelled with
  | true =>
    obtain ⟨hlast, hmaximum, hfinished⟩ := hf.skip hr hcancelled .finished
    cases answer with
    | error message => exact ⟨hlast, hmaximum, hfinished⟩
    | ok max => exact ⟨hlast, hmaximum, hfinished⟩
  | false =>
    cases answer with
    | error message =>
      exact hf.advance ⟨hr, hcancelled⟩ rfl rfl (fun h => nomatch h) fun _ _ hm => nomatch hm
    | ok max =>
      have hproduct := (hf.last i r ⟨hr, hcancelled⟩).2
      refine hf.advance ⟨hr, hcancelled⟩ rfl rfl (fun h => nomatch h) fun _ m hm => ?_
      have hown := hf.maximum i r ⟨hr, hcancelled⟩ hphase m hm
      exact ⟨by rw [hown]; exact hproduct, fun _ _ _ => hproduct.symm⟩

theorem Following.step (hf : Following h) {e : Event} (hs : step services h e = some h') :
    Following h' := by
  cases step_cases hs with
  | shown spotOptions amount metaError error => exact ⟨hf.last, hf.maximum, hf.finished⟩
  | selected spotOptions productId hasClient =>
    have hlist : Following { h with dialog := { h.dialog with spotOptions := spotOptions } } :=
      ⟨hf.last, hf.maximum, hf.finished⟩
    exact hlist.setProductId productId hasClient
  | metadata failure hr hphase => exact hf.onMetadata hr failure
  | maximum answer hr hphase => exact hf.onMaximum hr hphase answer
  | submitted wallet =>
    obtain ⟨error, pending, hs⟩ := h.dialog.onSubmit_eq services wallet
    rw [hs]
    exact ⟨hf.last, hf.maximum, hf.finished⟩
  | executed w hw => exact ⟨hf.last, hf.maximum, hf.finished⟩
  | failed message => exact ⟨hf.last, hf.maximum, hf.finished⟩
  | closed => exact .of_cancelled fun i r => Dialog.not_live_cancelRequests

/-! ## Whole runs -/

/-- The request of the selected asset has ended. -/
def History.Settled (h : History) : Prop :=
  ∃ r ∈ h.dialog.requests, r.cancelled = false ∧ r.phase = .finished

/-- A submit is made when the request of the selected asset has ended. -/
def SubmitsSettled (h : History) : Event → Prop
  | .submit _ => h.Settled
  | _ => True

/-- In every run, the metadata and the maximum that the dialog holds once the request of the
selected asset has ended are that asset's. -/
theorem own_of_settled {ok : History → Event → Prop}
    (hr : Transition.Reach (step services) ok (· = .start) h) (hs : h.Settled) : h.Own := by
  have hf : Following h := hr.inv (fun s hs => by
    cases hs
    exact .of_cancelled fun i r hr => nomatch hr.1) fun _ _ _ hf _ hst => hf.step hst
  obtain ⟨r, hmem, hlive, hphase⟩ := hs
  obtain ⟨i, hi, rfl⟩ := List.getElem_of_mem hmem
  exact hf.finished i _ ⟨List.getElem?_eq_getElem hi, hlive⟩ hphase

theorem reach_of_settled (hr : Transition.Reach (step services) SubmitsSettled (· = .start) h) :
    Transition.Reach (step services) SubmitsOwn (· = .start) h := by
  induction hr with
  | start h0 => exact .start h0
  | @next s s' e hr hok hst ih =>
    refine .next ih ?_ hst
    cases e with
    | submit wallet => exact own_of_settled hr hok
    | _ => trivial

/-- The guard of a withdraw belongs to the withdrawn asset, in every run whose submits are made in
`Own` states; and so does the maximum that an `Own` dialog offers. -/
theorem withdraw_guard_own (services : Services) {h : History}
    (hr : Transition.Reach (step services) SubmitsOwn (· = .start) h) :
    (∀ w ∈ h.executed, Sound services h.reports w) ∧ (h.Own → OfferSound services h) := by
  have hh : Held services h := hr.inv (fun s hs => by
    cases hs
    exact .start) fun _ _ _ hh hok hst => hh.step hok hst
  exact ⟨hh.executed, hh.offer⟩

/-! ## A dialog with two assets -/

instance : DecidablePred History.Own := fun h =>
  inferInstanceAs (Decidable (∀ m ∈ h.dialog.meta_, h.dialog.productId = some m.productId ∧
    ∀ v ∈ h.dialog.maxWithdraw, (bnToBigInt v).isSome → h.maxOf = h.dialog.productId))

instance (h : History) : ∀ e : Event, Decidable (SubmitsOwn h e)
  | .submit _ => inferInstanceAs (Decidable h.Own)
  | .products .. | .productsFailed _ | .select .. | .metadata .. | .maximum .. | .changeAmount _
  | .useMax | .nSubmissions _ | .withdrawn _ | .close => inferInstanceAs (Decidable True)

/-- The value of a text of digits. -/
def digits (s : String) : Nat := s.toList.foldl (fun n c => 10 * n + (c.toNat - '0'.toNat)) 0

/-- Tokens with 6 and with 18 decimals. The amounts are texts of digits. -/
def twoTokens : Services where
  trim := id
  parseFloat s := some (digits s)
  parseUnits s decimals := .ok (digits s * 10 ^ decimals)
  formatUnits value decimals := toString (value / 10 ^ decimals)
  getAllMarkets := [⟨0, true, "0xa"⟩, ⟨1, true, "0xb"⟩]
  decimals tokenAddr := if tokenAddr = "0xa" then 6 else 18
  ownerAddress := "0xabc"
  subaccountName := "default"

/-- 100 of the first asset can be withdrawn; 50 are entered, and then the other asset selected. -/
def otherSelected : List Event :=
  [.products [0, 1] true, .metadata 0 none, .maximum 0 (.ok (.bigint (100 * 10 ^ 18))),
    .changeAmount "50", .select 1 true]

/-- The submit waits for the responses of the selected asset. -/
def lateSubmit : List Event :=
  otherSelected ++ [.metadata 1 none, .maximum 1 (.ok (.bigint (60 * 10 ^ 18))),
    .submit ⟨true, true⟩, .nSubmissions none]

/-- A submit before the metadata, which the wallet rejects, and one before the maximum. -/
def earlySubmits : List Event :=
  otherSelected ++ [.submit ⟨true, true⟩, .nSubmissions none, .withdrawn (some "rejected"),
    .metadata 1 none, .submit ⟨true, true⟩, .nSubmissions none,
    .maximum 1 (.ok (.bigint (10 * 10 ^ 18)))]

/-- A withdraw of 50 of the second asset that passed the guard `max`, with `d` decimals. -/
def fifty (d : Nat) (max : Int) : Submission :=
  ⟨⟨"0xabc", "default", 1, 50 * 10 ^ d⟩, "50", some (max * 10 ^ d)⟩

theorem withdraw_guard_own_lateSubmit :
    ∃ h, Transition.run (step twoTokens) SubmitsOwn .start lateSubmit = some h ∧
      h.executed = [fifty 18 60] ∧ Sound twoTokens h.reports (fifty 18 60) := by
  have hrun : (Transition.run (step twoTokens) SubmitsOwn .start lateSubmit).map (·.executed) =
      some [fifty 18 60] := by decide +kernel
  obtain ⟨h, hr, hexecuted⟩ := Option.map_eq_some_iff.1 hrun
  refine ⟨h, hr, hexecuted, (withdraw_guard_own twoTokens (.of_run (.start rfl) hr)).1 _ ?_⟩
  rw [hexecuted]
  exact List.mem_singleton_self _

/-- The first withdraw is read with the decimals of the asset before, and the second is guarded by
the maximum of the asset before. -/
theorem withdraw_guard_of_previous :
    ∃ h, Transition.run (step twoTokens) Transition.anyStep .start earlySubmits = some h ∧
      h.executed = [fifty 6 100, fifty 18 100] ∧
      ∀ w ∈ h.executed, ¬ Sound twoTokens h.reports w := by
  have hrun : (Transition.run (step twoTokens) Transition.anyStep .start earlySubmits).map
        (fun h => (h.executed, h.reports)) =
      some ([fifty 6 100, fifty 18 100],
        [(0, .bigint (100 * 10 ^ 18)), (1, .bigint (10 * 10 ^ 18))]) := by decide +kernel
  obtain ⟨h, hr, hend⟩ := Option.map_eq_some_iff.1 hrun
  obtain ⟨hexecuted, hreports⟩ := Prod.mk.inj hend
  have hdecimals : getSpotCollateralMeta twoTokens 1 = .ok ⟨1, "0xb", 18⟩ := by decide +kernel
  refine ⟨h, hr, hexecuted, fun w hw hsound => ?_⟩
  obtain ⟨m, hm, hparse, hguard⟩ := hsound
  rw [hexecuted] at hw
  obtain rfl | rfl : w = fifty 6 100 ∨ w = fifty 18 100 := by simpa using hw
  · cases hdecimals.symm.trans hm
    revert hparse
    decide +kernel
  · cases hdecimals.symm.trans hm
    obtain ⟨v, x18, hv, hx18, hmax⟩ := hguard _ rfl
    rw [hreports] at hv
    obtain rfl : v = .bigint (10 * 10 ^ 18) := by simpa [fifty] using hv
    cases hx18
    have hwithin := (hmax (by decide)).1
    unfold Within at hwithin
    revert hwithin
    decide +kernel

end Client.Withdraw
