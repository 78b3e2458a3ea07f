import Thornado.Chart.Follow

/-!
# What subscribers are told

Every accepted row of the stream is announced; a load replaces the cache and announces nothing.

* `subscribers_converge`: the runs in which no load changes a candle that a subscriber was served.
* `backfill_unannounced`: a run in which one does.
-/

namespace Chart

open Rust Rust.Json Transition

variable {F : Type} {series : Series}

/-- A message to all open subscribers. -/
theorem mem_emit {h : Hub F} {message : ServerMessage F} {c' : Subscriber F}
    (hc : c' ∈ (h.emit message).subscribers) :
    ∃ c ∈ h.subscribers, c.closed = false ∧ c' = { c with queue := c.queue ++ [message] } := by
  unfold Hub.emit at hc
  obtain ⟨c, hsent, rfl⟩ := List.mem_map.1 hc
  obtain ⟨hmem, hopen⟩ := List.mem_filter.1 hsent
  refine ⟨c, hmem, ?_, rfl⟩
  cases hclosed : c.closed with
  | false => rfl
  | true =>
    rw [hclosed] at hopen
    cases hopen

/-! ## The loads of the worker -/

section
variable (series : Series) (table : Table) (response : Except String (List Candlestick))
  (commit : Except String Unit)

/-- The rows a backfill stores before it loads; none if it does not load. -/
def Series.backfillLoads : Option (List CandleRow) :=
  match fetchArchive series response, commit with
  | .ok (row :: rows), .ok () => some (row :: rows)
  | _, _ => none

/-- The rows a bootstrap stores before it loads; none if it fails. -/
def Series.bootstrapLoads : Option (List CandleRow) :=
  if (series.load table series.historyLimit).length < series.historyLimit then
    match fetchArchive series response with
    | .ok [] => some []
    | _ => series.backfillLoads response commit
  else some []

end

section
variable {s s' : SeriesSys} {response : Except String (List Candlestick)}
  {commit : Except String Unit}

theorem backfill_loads (h : series.backfillFromArchive s response commit = .ok s') :
    s' = s ∨ ∃ rows ∈ series.backfillLoads response commit, (∀ row ∈ rows, series.Owns row) ∧
      s' = series.reload s (s.table.upsertMany rows) := by
  obtain ⟨rows, hfetch, ⟨-, rfl⟩ | ⟨hne, rfl, rfl⟩⟩ := backfill_cases h
  · exact .inl rfl
  · refine .inr ⟨rows, ?_, fetchArchive_owns hfetch, rfl⟩
    obtain ⟨row, rest, rfl⟩ := List.exists_cons_of_ne_nil hne
    unfold Series.backfillLoads
    rw [hfetch]
    rfl

theorem bootstrap_loads (h : series.bootstrap s response commit = .ok s') :
    ∃ rows ∈ series.bootstrapLoads s.table response commit, (∀ row ∈ rows, series.Owns row) ∧
      s' = series.reload s (s.table.upsertMany rows) := by
  unfold Series.bootstrap at h
  unfold Series.bootstrapLoads
  split at h
  · rename_i hshort
    rw [if_pos hshort]
    obtain ⟨fetched, hfetch, h⟩ := Gate.bind_ok h
    rw [hfetch]
    cases fetched with
    | nil =>
      cases h
      exact ⟨[], rfl, fun _ hrow => (nomatch hrow), rfl⟩
    | cons row rows =>
      obtain ⟨⟨⟩, rfl, h⟩ := Gate.bind_ok h
      cases h
      refine ⟨row :: rows, ?_, fetchArchive_owns hfetch, rfl⟩
      unfold Series.backfillLoads
      rw [hfetch]
      rfl
  · rename_i hlong
    rw [if_neg hlong]
    cases h
    exact ⟨[], rfl, fun _ hrow => (nomatch hrow), rfl⟩

end

/-! ## What a step can do -/

variable [F64 F]

/-- What the steps make of a hub. -/
inductive Moves (json : SerdeJson F) (series : Series) (h : Hub F) : HubAct → Hub F → Prop
  | rest {a : HubAct} : Moves json series h a h
  | bootstrap {response : Except String (List Candlestick)} {commit : Except String Unit}
      (rows : List CandleRow) : h.phase = .idle →
      rows ∈ series.bootstrapLoads h.sys.table response commit → (∀ row ∈ rows, series.Owns row) →
      Moves json series h (.bootstrap response commit)
        { h with sys := { series.reload h.sys (h.sys.table.upsertMany rows) with ready := true } }
  | backfill {response : Except String (List Candlestick)} {commit : Except String Unit}
      (rows : List CandleRow) : h.phase = .idle →
      rows ∈ series.backfillLoads response commit → (∀ row ∈ rows, series.Owns row) →
      Moves json series h (.backfill response commit)
        { h with sys := { series.reload h.sys (h.sys.table.upsertMany rows) with
            ready := h.sys.ready } }
  | text {message : String} {nowMillis : Nat} {commit : Except String Unit} (row : CandleRow) :
      h.phase = .idle → h.sys.ready = true →
      readCandlestick json series message nowMillis = .ok (some row) →
      Moves json series h (.text message nowMillis commit)
        { h with
          sys := { h.sys with
            table := h.sys.table.upsertMany [row]
            cache := (applyRow h.sys.cache row series.cacheCapacity).1 }
          phase := if (applyRow h.sys.cache row series.cacheCapacity).2 then .applied row
            else h.phase }
  | number {row : CandleRow} (seq' : Nat) : h.phase = .applied row →
      Moves json series h .number { h with phase := .numbered row h.seq, seq := seq' }
  | emitUpdate {row : CandleRow} {seq : Nat} : h.phase = .numbered row seq →
      Moves json series h .emitUpdate { h.emit (series.update row seq) with phase := .idle }
  | emitStatus {a : HubAct} {symbol status detail : String} {productId granularity : UInt32} :
      h.phase = .idle →
      Moves json series h a (h.emit (.status symbol productId granularity status detail))
  | others {rows : List CandleRow} (sys : SeriesSys) :
      seriesStep json series h.sys (.others rows) = some sys →
      Moves json series h (.others rows) { h with sys := sys }
  | register {a : HubAct} (id next : Nat) :
      Moves json series h a
        { h with
          nextSubscriberId := next
          subscribers := (h.subscribers.filter fun c => c.id ≠ id) ++ [{ id := id }] }
  | takeSnapshot {a : HubAct} (id seq limit : Nat) : 0 < limit →
      Moves json series h a
        { h with
          seq := seq
          subscribers := h.subscribers.map fun c =>
            if c.id = id ∧ c.snapshot.isNone then
              { c with snapshot := some (series.snapshotMessage h limit).1 } else c }
  | leave {a : HubAct} (subscribers : List (Subscriber F)) :
      (∀ c ∈ subscribers, c.closed = false → c ∈ h.subscribers) →
      Moves json series h a { h with subscribers := subscribers }

section
variable {json : SerdeJson F} {h h' : Hub F}

/-- A bootstrap loads rows, or its archive call failed. -/
theorem bootstrap_moves {response : Except String (List Candlestick)} {commit : Except String Unit}
    (hstep : hubStep json series h (.bootstrap response commit) = some h') :
    Moves json series h (.bootstrap response commit) h' := by
  simp only [hubStep] at hstep
  split at hstep
  · cases hstep
  · split at hstep
    · rename_i hidle
      obtain ⟨sys, hsys, rfl⟩ := Option.map_eq_some_iff.1 hstep
      simp only [seriesStep] at hsys
      split at hsys
      · rename_i s₁ hcall
        cases hsys
        obtain ⟨rows, hrows, howns, rfl⟩ := bootstrap_loads hcall
        exact .bootstrap rows hidle hrows howns
      · cases hsys
        exact .rest
    · cases hstep

/-- A text applies the row it holds, or leaves the hub as it was. -/
theorem text_moves {message : String} {nowMillis : Nat} {commit : Except String Unit}
    (hstep : hubStep json series h (.text message nowMillis commit) = some h') :
    Moves json series h (.text message nowMillis commit) h' := by
  simp only [hubStep] at hstep
  split at hstep
  · rename_i hready
    split at hstep
    · rename_i hidle
      cases hcall : series.handleText h.sys json message nowMillis commit with
      | error err =>
        rw [hcall] at hstep
        cases hstep
        exact .rest
      | ok res =>
        obtain ⟨sys, update⟩ := res
        rw [hcall] at hstep
        obtain ⟨rfl, rfl⟩ | ⟨row, hread, rfl, rfl⟩ := handleText_cases hcall
        · cases hstep
          exact .rest
        · have hmove : Moves json series h (.text message nowMillis commit) _ :=
            .text row hidle hready hread
          cases happ : (applyRow h.sys.cache row series.cacheCapacity).2 with
          | true =>
            simp only [happ] at hstep hmove
            cases hstep
            exact hmove
          | false =>
            simp only [happ] at hstep hmove
            cases hstep
            exact hmove
    · cases hstep
  · cases hstep

theorem number_moves (hstep : hubStep json series h .number = some h') :
    Moves json series h .number h' := by
  simp only [hubStep] at hstep
  split at hstep
  · rename_i row happlied
    cases hstep
    exact .number _ happlied
  · cases hstep

theorem emitUpdate_moves (hstep : hubStep json series h .emitUpdate = some h') :
    Moves json series h .emitUpdate h' := by
  simp only [hubStep] at hstep
  split at hstep
  · rename_i row seq hnumbered
    cases hstep
    exact .emitUpdate hnumbered
  · cases hstep

theorem emitStatus_moves {status detail : String}
    (hstep : hubStep json series h (.emitStatus status detail) = some h') :
    Moves json series h (.emitStatus status detail) h' := by
  simp only [hubStep] at hstep
  split at hstep
  · rename_i hidle
    cases hstep
    exact .emitStatus hidle
  · cases hstep

/-- A backfill loads rows, or nothing (no gap, or its archive call failed). -/
theorem backfill_moves {response : Except String (List Candlestick)} {commit : Except String Unit}
    (hstep : hubStep json series h (.backfill response commit) = some h') :
    Moves json series h (.backfill response commit) h' := by
  simp only [hubStep] at hstep
  split at hstep
  · rename_i hidle
    obtain ⟨sys, hsys, rfl⟩ := Option.map_eq_some_iff.1 hstep
    simp only [seriesStep] at hsys
    split at hsys
    · split at hsys
      · rename_i s₁ hcall
        cases hsys
        obtain rfl | ⟨rows, hrows, howns, rfl⟩ := backfill_loads hcall
        · exact .rest
        · exact .backfill rows hidle hrows howns
      · cases hsys
        exact .rest
    · cases hsys
  · cases hstep

/-- Closing a subscriber leaves the open ones as they were. -/
theorem close_moves {id : Nat} (hstep : hubStep json series h (.close id) = some h') :
    Moves json series h (.close id) h' := by
  cases hstep
  refine .leave _ fun c' hc' hopen => ?_
  obtain ⟨c, hc, rfl⟩ := List.mem_map.1 hc'
  split at hopen
  · cases hopen
  · rename_i hother
    rw [if_neg hother]
    exact hc

/-- Every step is such a move. -/
theorem hubStep_moves {a : HubAct} (hstep : hubStep json series h a = some h') :
    Moves json series h a h' := by
  cases a with
  | bootstrap response commit => exact bootstrap_moves hstep
  | text message nowMillis commit => exact text_moves hstep
  | number => exact number_moves hstep
  | emitUpdate => exact emitUpdate_moves hstep
  | emitStatus status detail => exact emitStatus_moves hstep
  | backfill response commit => exact backfill_moves hstep
  | others rows =>
    simp only [hubStep] at hstep
    obtain ⟨sys, hsys, rfl⟩ := Option.map_eq_some_iff.1 hstep
    exact .others sys hsys
  | register =>
    cases hstep
    exact .register ..
  | takeSnapshot id limit =>
    cases hstep
    exact .takeSnapshot id _ _ (by unfold Series.snapshotLimit; omega)
  | unsubscribe id =>
    cases hstep
    exact .leave _ fun c hc _ => (List.mem_filter.1 hc).1
  | close id => exact close_moves hstep

end

/-! ## The condition on the steps -/

/-- The step is not a load that changes a candle an open subscriber was served. (Besides: no row
before 1970, and no other writer of the series' rows.) -/
def LoadsKeepServed (json : SerdeJson F) (series : Series) (h : Hub F) : HubAct → Prop
  | .bootstrap response commit =>
    ∀ rows ∈ series.bootstrapLoads h.sys.table response commit,
      Nonneg rows ∧ ∀ c ∈ h.subscribers, c.closed = false → KeepsServed series h.sys rows c
  | .backfill response commit =>
    ∀ rows ∈ series.backfillLoads response commit,
      Nonneg rows ∧ ∀ c ∈ h.subscribers, c.closed = false → KeepsServed series h.sys rows c
  | .text message nowMillis _ =>
    ∀ row ∈ (readCandlestick json series message nowMillis).toOption.join, 0 ≤ row.bucketStartSec
  | .others rows => SoleWriter series h.sys (.others rows)
  | _ => True

/-- A new handle without subscribers. -/
structure HubStart (series : Series) (h : Hub F) : Prop where
  fresh : Fresh series h.sys
  nonneg : Nonneg (series.stored h.sys.table)
  phase : h.phase = .idle
  subscribers : h.subscribers = []

/-! ## The steps -/

/-- What is still to be sent. -/
def Phase.pending (series : Series) : Phase → List (ServerMessage F)
  | .idle => []
  | .applied row => [series.update row 0]
  | .numbered row seq => [series.update row seq]

structure HubInv (series : Series) (h : Hub F) : Prop where
  synced : Synced series h.sys
  nonneg : Nonneg (series.stored h.sys.table)
  /-- Of a subscriber that joins now. -/
  joining : Follows series h.sys none (h.phase.pending series : List (ServerMessage F))
  subscribers : ∀ c ∈ h.subscribers, c.closed = false →
    Follows series h.sys c.snapshot (c.queue ++ h.phase.pending series)

section
variable {h : Hub F}

/-- A load while nothing is pending. -/
theorem HubInv.load (hinv : HubInv series h) (hidle : h.phase = .idle) {rows : List CandleRow}
    (howns : ∀ row ∈ rows, series.Owns row) (hrows : Nonneg rows)
    (hkeeps : ∀ c ∈ h.subscribers, c.closed = false → KeepsServed series h.sys rows c)
    (ready : Bool) :
    HubInv series { h with
      sys := { series.reload h.sys (h.sys.table.upsertMany rows) with ready := ready } } := by
  refine ⟨synced_reload (owned_upsertMany howns hinv.synced.owned) ready, fun row hrow => ?_, ?_,
    fun c hc hopen => ?_⟩
  · rcases mem_stored_upsertMany hrow with hold | hnew
    · exact hinv.nonneg row hold
    · exact hrows row hnew
  · simp only [hidle, Phase.pending]
    exact Follows.nothing
  · have hf := hinv.subscribers c hc hopen
    simp only [hidle, Phase.pending, List.append_nil] at hf ⊢
    exact hf.reload hinv.synced hinv.nonneg howns hrows (hkeeps c hc hopen) ready

/-- Rows that the cache does not show. -/
theorem HubInv.frame (hinv : HubInv series h) {sys : SeriesSys} (hsync : Synced series sys)
    (hn : Nonneg (series.stored sys.table)) (hcache : sys.cache = h.sys.cache)
    (hkeys : ∀ row ∈ series.stored h.sys.table,
      ∃ row' ∈ series.stored sys.table, row'.bucketStartSec = row.bucketStartSec) :
    HubInv series { h with sys := sys } :=
  ⟨hsync, hn, hinv.joining.frame hcache hkeys,
    fun c hc hopen => (hinv.subscribers c hc hopen).frame hcache hkeys⟩

/-- A row of the stream, up to its announcement. -/
theorem HubInv.store (hinv : HubInv series h) (hidle : h.phase = .idle)
    (hready : h.sys.ready = true) {row : CandleRow} (howns : series.Owns row)
    (hrow : 0 ≤ row.bucketStartSec) :
    HubInv series { h with
      sys := { h.sys with
        table := h.sys.table.upsertMany [row]
        cache := (applyRow h.sys.cache row series.cacheCapacity).1 }
      phase := if (applyRow h.sys.cache row series.cacheCapacity).2 then .applied row
        else h.phase } := by
  have hsync := hinv.synced.store hready howns
  have hn : Nonneg (series.stored (h.sys.table.upsertMany [row])) := fun r hr => by
    rcases mem_stored_upsertMany hr with hold | hnew
    · exact hinv.nonneg r hold
    · rw [List.mem_singleton.1 hnew]
      exact hrow
  cases happ : (applyRow h.sys.cache row series.cacheCapacity).2 with
  | false =>
    have hsame : (applyRow h.sys.cache row series.cacheCapacity).1 = h.sys.cache := by
      obtain ⟨hno, -⟩ | ⟨hno, -⟩ | ⟨n, -, hyes, -⟩ := applyRow_cases
        ((stored_ascending _).sublist hinv.synced.suffix.sublist) row series.cacheCapacity
      · rw [hno]
      · rw [hno]
      · rw [hyes] at happ
        cases happ
    exact hinv.frame hsync hn hsame fun e he => stored_upsertMany_bucket [row] he
  | true =>
    refine ⟨hsync, hn, ?_, fun c hc hopen => ?_⟩
    · exact (@Follows.nothing F series _ h.sys).store hinv.synced hinv.nonneg howns hrow happ 0
    · have hf := hinv.subscribers c hc hopen
      simp only [hidle, Phase.pending, List.append_nil] at hf
      exact hf.store hinv.synced hinv.nonneg howns hrow happ 0

/-- The number of an update does not matter to a client. -/
theorem HubInv.number (hinv : HubInv series h) {row : CandleRow} (happlied : h.phase = .applied row)
    (seq seq' : Nat) : HubInv series { h with phase := .numbered row seq, seq := seq' } := by
  have hsame : ∀ (messages : List (ServerMessage F)) (view : Nat → Option (CandleView F)),
      (messages ++ [series.update row seq]).foldl clientApply view =
        (messages ++ [series.update row 0]).foldl clientApply view := fun messages view => by
    rw [List.foldl_append, List.foldl_append]
    rfl
  obtain ⟨hsync, hn, hjoining, hsubs⟩ := hinv
  rw [happlied] at hjoining hsubs
  exact ⟨hsync, hn, hjoining.congr (hsame []), fun c hc hopen =>
    (hsubs c hc hopen).congr (hsame c.queue)⟩

theorem HubInv.emitUpdate (hinv : HubInv series h) {row : CandleRow} {seq : Nat}
    (hnumbered : h.phase = .numbered row seq) :
    HubInv series { h.emit (series.update row seq) with phase := .idle } := by
  refine ⟨hinv.synced, hinv.nonneg, Follows.nothing, fun c' hc' _ => ?_⟩
  obtain ⟨c, hc, hopen, rfl⟩ := mem_emit hc'
  have hf := hinv.subscribers c hc hopen
  rw [hnumbered] at hf
  simp only [Phase.pending, List.append_nil] at hf ⊢
  exact hf

theorem HubInv.emitStatus (hinv : HubInv series h) (hidle : h.phase = .idle)
    {symbol status detail : String} {productId granularity : UInt32} :
    HubInv series (h.emit (.status symbol productId granularity status detail)) := by
  refine ⟨hinv.synced, hinv.nonneg, hinv.joining, fun c' hc' _ => ?_⟩
  obtain ⟨c, hc, hopen, rfl⟩ := mem_emit hc'
  have hf := hinv.subscribers c hc hopen
  change Follows series h.sys c.snapshot (_ ++ h.phase.pending series)
  simp only [hidle, Phase.pending, List.append_nil] at hf ⊢
  exact hf.status

theorem HubInv.register (hinv : HubInv series h) (id next : Nat) :
    HubInv series { h with
      nextSubscriberId := next
      subscribers := (h.subscribers.filter fun c => c.id ≠ id) ++ [{ id := id }] } := by
  refine ⟨hinv.synced, hinv.nonneg, hinv.joining, fun c hc hopen => ?_⟩
  rcases List.mem_append.1 hc with hold | hnew
  · exact hinv.subscribers c (List.mem_filter.1 hold).1 hopen
  · rw [List.mem_singleton.1 hnew]
    exact hinv.joining

theorem HubInv.takeSnapshot (hinv : HubInv series h) (id seq : Nat) {limit : Nat}
    (hpos : 0 < limit) :
    HubInv series { h with
      seq := seq
      subscribers := h.subscribers.map fun c =>
        if c.id = id ∧ c.snapshot.isNone then
          { c with snapshot := some (series.snapshotMessage h limit).1 } else c } := by
  refine ⟨hinv.synced, hinv.nonneg, hinv.joining, fun c' hc' hopen => ?_⟩
  obtain ⟨c, hc, rfl⟩ := List.mem_map.1 hc'
  split at hopen
  · rename_i hnone
    have hf := hinv.subscribers c hc hopen
    rw [Option.isNone_iff_eq_none.1 hnone.2] at hf
    rw [if_pos hnone]
    exact hf.takeSnapshot hinv.synced hinv.nonneg hpos
  · rename_i hsome
    rw [if_neg hsome]
    exact hinv.subscribers c hc hopen

/-- Subscribers that leave, or whose receiver is dropped. -/
theorem HubInv.leave (hinv : HubInv series h) {subscribers : List (Subscriber F)}
    (hsub : ∀ c ∈ subscribers, c.closed = false → c ∈ h.subscribers) :
    HubInv series { h with subscribers := subscribers } :=
  ⟨hinv.synced, hinv.nonneg, hinv.joining, fun c hc hopen =>
    hinv.subscribers c (hsub c hc hopen) hopen⟩

theorem HubInv.step {json : SerdeJson F} {h' : Hub F} {a : HubAct} (hinv : HubInv series h)
    (hok : LoadsKeepServed json series h a) (hstep : Moves json series h a h') :
    HubInv series h' := by
  cases hstep with
  | rest => exact hinv
  | bootstrap rows hidle hrows howns =>
    obtain ⟨hn, hkeeps⟩ := hok rows hrows
    exact hinv.load hidle howns hn hkeeps true
  | backfill rows hidle hrows howns =>
    obtain ⟨hn, hkeeps⟩ := hok rows hrows
    exact hinv.load hidle howns hn hkeeps h.sys.ready
  | text row hidle hready hread =>
    refine hinv.store hidle hready (readCandlestick_owns hread) (hok row ?_)
    rw [hread]
    rfl
  | number seq' happlied => exact hinv.number happlied ..
  | emitUpdate hnumbered => exact hinv.emitUpdate hnumbered
  | emitStatus hidle => exact hinv.emitStatus hidle
  | @others rows sys hsys =>
    have hsole : SoleWriter series h.sys (.others rows) := hok
    have hsync := hinv.synced.step hsole hsys
    cases hsys
    have hstored := stored_others hsole h.sys.table
    refine hinv.frame hsync ?_ rfl ?_
    · simp only [hstored]
      exact hinv.nonneg
    · simp only [hstored]
      exact fun row hrow => ⟨row, hrow, rfl⟩
  | register id next => exact hinv.register ..
  | takeSnapshot id seq limit hpos => exact hinv.takeSnapshot id seq hpos
  | leave subscribers hsub => exact hinv.leave hsub

end

/-- **Subscribers converge** in every run in which no load changes a candle that one of them was
served: an open subscriber that has consumed its messages shows the cached candles of its window. -/
theorem subscribers_converge {json : SerdeJson F} {h : Hub F}
    (hr : Reach (hubStep json series) (LoadsKeepServed json series) (HubStart series) h) :
    Converged h := by
  have hinv : HubInv series h := by
    refine hr.inv (fun h₀ h0 => ?_) fun _ _ _ hinv hok hstep =>
      hinv.step hok (hubStep_moves hstep)
    have hstart : Reach (seriesStep json series) (SoleWriter series) (Fresh series) h₀.sys :=
      .start h0.fresh
    refine ⟨Reach.synced hstart, h0.nonneg, ?_, ?_⟩
    · rw [h0.phase]
      exact Follows.nothing
    · rw [h0.subscribers]
      exact fun _ hc => nomatch hc
  intro hidle c hc hopen message hmessage k hk hreach
  have hf := hinv.subscribers c hc hopen
  rw [hidle, Option.mem_def.1 hmessage] at hf
  simp only [Phase.pending, List.append_nil] at hf
  exact hf.clientView_eq hk hreach

/-! ## A reconnect with an open chart -/

instance (k : Nat) : (message : ServerMessage F) → Decidable (message.Touches k)
  | .snapshot .. => isTrue trivial
  | .update _ _ _ _ candle => inferInstanceAs (Decidable (candle.bucketStart = k))
  | .status .. => isFalse id

instance (c : Subscriber F) (k : Nat) : Decidable (c.Serves k) := by
  unfold Subscriber.Serves
  split
  · infer_instance
  · infer_instance

instance (series : Series) (s : SeriesSys) (rows : List CandleRow) (c : Subscriber F) :
    Decidable (KeepsServed series s rows c) := by
  unfold KeepsServed BelowLoad
  infer_instance

instance (json : SerdeJson F) (series : Series) (h : Hub F) (a : HubAct) :
    Decidable (LoadsKeepServed json series h a) := by
  unfold LoadsKeepServed Nonneg
  split
  all_goals infer_instance

def chartJson : SerdeJson Rat := candleJson [("60", "7", "3"), ("120", "8", "5")]

def chartStart : Hub Rat where
  sys := ⟨.empty, [], false⟩

theorem chartStart_start : HubStart btcPerp chartStart :=
  ⟨⟨rfl, rfl, fun _ hrow => nomatch Table.mem_storedRows.1 hrow⟩,
    fun _ hrow => (nomatch Table.mem_storedRows.1 hrow), rfl, rfl⟩

/-- A chart is opened while the candle of 60 is being announced; then the stream fails and the
worker reconnects, with this archive. -/
def openChart (archive : List Candlestick) : List HubAct :=
  [.bootstrap (.ok []) (.ok ()), .text (candleText "60" "7" "3") 0 (.ok ()), .number,
    .register, .emitUpdate, .takeSnapshot 1 none,
    .text (candleText "120" "8" "5") 0 (.ok ()), .number, .emitUpdate,
    .emitStatus "reconnecting" "stream error: upstream websocket closed; retry in 1s",
    .backfill (.ok archive) (.ok ())]

/-- The archive has an older version of the last candle. -/
theorem subscribers_converge_openChart : ∃ h,
    run (hubStep chartJson btcPerp) (LoadsKeepServed chartJson btcPerp) chartStart
      (openChart [archiveCandle 4 120 9]) = some h ∧
    (h.phase, h.subscribers.map (·.queue.length), h.sys.cache.map (·.bucketStartSec)) =
      (.idle, [3], [60, 120]) ∧ Converged h := by
  have hrun : (run (hubStep chartJson btcPerp) (LoadsKeepServed chartJson btcPerp) chartStart
      (openChart [archiveCandle 4 120 9])).map (fun h =>
        (h.phase, h.subscribers.map (·.queue.length), h.sys.cache.map (·.bucketStartSec))) =
      some (.idle, [3], [60, 120]) := by
    decide +kernel
  obtain ⟨h, hh, hdata⟩ := Option.map_eq_some_iff.1 hrun
  exact ⟨h, hh, hdata, subscribers_converge (Reach.of_run (.start chartStart_start) hh)⟩

/-- What the client that opened the chart shows at 60: the start of its window, and the candle. -/
def chartAt60 (h : Hub Rat) : Option (Bool × Option Nat × Option String) :=
  h.subscribers.head?.map fun c => (c.closed, c.snapshot.map (·.windowStart),
    (clientView (c.snapshot.toList ++ c.queue) 60).map (·.closeX18))

/-- The cached candle of 60, if nothing is left to announce. -/
def cacheAt60 (h : Hub Rat) : Option (List Int × Option String) :=
  if h.phase = .idle then some (h.sys.cache.map (·.bucketStartSec),
    (cachedView h.sys.cache 60 : Option (CandleView Rat)).map (·.closeX18)) else none

/-- The archive has a newer version of the candle of 60. -/
def repairRun : Option (Hub Rat) :=
  run (hubStep chartJson btcPerp) anyStep chartStart (openChart [archiveCandle 4 60 9])

/-- **A repaired candle is not announced** to the chart that shows it. -/
theorem backfill_unannounced : ∃ h, repairRun = some h ∧ ¬ Converged h := by
  have hchart : repairRun.map chartAt60 = some (some (false, some 60, some "7")) := by
    decide +kernel
  have hcache : repairRun.map cacheAt60 = some (some ([60, 120], some "9")) := by
    decide +kernel
  obtain ⟨h, hh, hchart⟩ := Option.map_eq_some_iff.1 hchart
  rw [hh, Option.map_some, Option.some.injEq] at hcache
  refine ⟨h, hh, fun hconverged => ?_⟩
  unfold cacheAt60 at hcache
  split at hcache
  · rename_i hidle
    obtain ⟨hbuckets, hclose⟩ := Prod.mk.inj (Option.some.inj hcache)
    obtain ⟨c, hc, hclient⟩ := Option.map_eq_some_iff.1 hchart
    obtain ⟨hopen, hclient⟩ := Prod.mk.inj hclient
    obtain ⟨hwindow, hshown⟩ := Prod.mk.inj hclient
    obtain ⟨message, hmessage, hstart⟩ := Option.map_eq_some_iff.1 hwindow
    have hreach : Reaches h.sys.cache 60 := by
      intro first hfirst
      have hhead : (h.sys.cache.map (·.bucketStartSec)).head? = some first.bucketStartSec := by
        rw [List.head?_map, hfirst]
        rfl
      rw [hbuckets, List.head?_cons, Option.some.injEq] at hhead
      exact Int.le_of_eq hhead.symm
    have hsame := hconverged hidle c (List.mem_of_mem_head? hc) hopen message hmessage 60
      (Nat.le_of_eq hstart) hreach
    rw [hmessage, Option.toList_some, List.singleton_append, hsame, hclose] at hshown
    exact absurd hshown (by decide)
  · cases hcache

end Chart
