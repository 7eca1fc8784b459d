import FuturesBot.Exchange.Adapter
import FuturesBot.Lib.Dict
import FuturesBot.Storage.Session

namespace FuturesBot
open Lib

/-- A market snapshot, with what the cycle reads of it. -/
structure MarketSnapshotFields extends SnapshotBook where
  lastPrice : Amount
  fundingRate : Option Amount
  accountBalanceUsdt : Amount
  openPositionsCount : ℕ
  activeOrdersCount : ℕ
  latencyMs : ℤ
  clockSkewMs : ℤ

def MarketSnapshotFields.Valid (f : MarketSnapshotFields) : Prop :=
  0 < f.lastPrice ∧ 0 < f.bid ∧ 0 < f.ask ∧ 0 ≤ f.accountBalanceUsdt ∧
  (0 ≤ f.latencyMs ∧ f.latencyMs ≤ 10000) ∧ |f.clockSkewMs| ≤ 5000 ∧
  f.symbol ∈ allowedSymbols ∧ f.bid < f.ask ∧ f.bid ≤ f.lastPrice ∧ f.lastPrice ≤ f.ask

structure MarketSnapshot extends MarketSnapshotFields where
  valid : toMarketSnapshotFields.Valid

/-- What a snapshot is given of the account. -/
structure AccountReads where
  balanceUsdt : Amount
  openPositionsCount : ℕ
  activeOrdersCount : ℕ

/-- The parts of the cycle that lie outside the exchange: the fetcher, the guard
that validates and stores a snapshot, and the analysis of a stored snapshot,
which keeps its own failures to itself. -/
structure MarketFeed where
  fetchSnapshot : Symbol → AccountReads → Except PyError MarketSnapshot
  processSnapshot : MarketSnapshot → Except PyError Unit
  onSnapshot : MarketSnapshot → Option VolatilityAssessmentRow

/-- The last prices and books known, which outlive a failed fetch. -/
structure MarketDataCache where
  lastPrices : Dict Symbol Amount := .empty
  lastBooks : Dict Symbol (Amount × Amount) := .empty

namespace MarketDataCycleService

/-- The sum over the symbols of what a read counts; the first failure ends it. -/
def countOver (read : Symbol → Call σ α) (count : α → ℕ) : List Symbol → Call σ ℕ
  | [], x => (.ok 0, x)
  | symbol :: symbols, x =>
    match read symbol x with
    | (.error e, x) => (.error e, x)
    | (.ok a, x) =>
      match countOver read count symbols x with
      | (.error e, x) => (.error e, x)
      | (.ok n, x) => (.ok (count a + n), x)

/-- The reads that come before any fetch. Nothing here catches an exception. -/
def readAccount (A : ExchangeAdapter σ) (symbols : List Symbol) : Call σ AccountReads := fun x =>
  match A.getAccountState x with
  | (.error e, x) => (.error e, x)
  | (.ok account, x) =>
    match countOver A.getPosition (fun p => p.isSome.toNat) symbols x with
    | (.error e, x) => (.error e, x)
    | (.ok positions, x) =>
      match countOver A.getOpenOrders List.length symbols x with
      | (.error e, x) => (.error e, x)
      | (.ok orders, x) => (.ok ⟨account.balanceUsdt, positions, orders⟩, x)

/-- One fetched symbol: refused snapshots are logged and skipped. -/
def processResult (f : MarketFeed) (reads : AccountReads) (symbol : Symbol)
    (st : List MarketSnapshot × MarketDataCache × Session) :
    List MarketSnapshot × MarketDataCache × Session :=
  match f.fetchSnapshot symbol reads with
  | .error _ => st
  | .ok snapshot =>
    match f.processSnapshot snapshot with
    | .error _ => st
    | .ok () =>
      (st.1 ++ [snapshot],
        { lastPrices := st.2.1.lastPrices.set symbol snapshot.lastPrice
          lastBooks := st.2.1.lastBooks.set symbol (snapshot.bid, snapshot.ask) },
        match f.onSnapshot snapshot with
        | some row => st.2.2.addVolatilityAssessment row
        | none => st.2.2)

/-- One cycle of market data: a snapshot of every symbol that can be had, and a
commit, unless the account cannot be read. -/
def tickAll (A : ExchangeAdapter σ) (symbols : List Symbol) (f : MarketFeed)
    (cache : MarketDataCache) (session : Session) :
    Call σ (List MarketSnapshot × MarketDataCache × Session) := fun x =>
  match readAccount A symbols x with
  | (.error e, x) => (.error e, x)
  | (.ok reads, x) =>
    let (snapshots, cache, session) :=
      symbols.foldl (fun st symbol => processResult f reads symbol st) ([], cache, session)
    (.ok (snapshots, cache, session.commit), x)

/-- Every read of the list returns, one after the other. -/
inductive ReadsTo (read : Symbol → Call σ α) : List Symbol → σ → σ → Prop
  | nil (x : σ) : ReadsTo read [] x x
  | cons {symbol : Symbol} {symbols : List Symbol} {a : α} {x x₁ x₂ : σ} :
      read symbol x = (.ok a, x₁) → ReadsTo read symbols x₁ x₂ →
      ReadsTo read (symbol :: symbols) x x₂

/-- The account state, then every position, then every list of open orders can be
read. -/
def AccountReadable (A : ExchangeAdapter σ) (symbols : List Symbol) (x : σ) : Prop :=
  ∃ account x₁ x₂ x₃, A.getAccountState x = (.ok account, x₁) ∧
    ReadsTo A.getPosition symbols x₁ x₂ ∧ ReadsTo A.getOpenOrders symbols x₂ x₃

theorem countOver_iff {read : Symbol → Call σ α} (count : α → ℕ) {symbols : List Symbol} :
    ∀ {x}, (∃ n, countOver read count symbols x = (.ok n, x')) ↔ ReadsTo read symbols x x' := by
  induction symbols with
  | nil =>
    intro x
    constructor
    · intro hex
      obtain ⟨n, h⟩ := hex
      cases h
      exact .nil _
    · rintro ⟨⟩
      exact ⟨0, rfl⟩
  | cons symbol symbols ih =>
    intro x
    rw [countOver]
    constructor
    · intro hex
      obtain ⟨n, h⟩ := hex
      split at h
      · cases h
      · rename_i a x₁ hr
        split at h
        · cases h
        · rename_i m x₂ hc
          cases h
          exact .cons hr (ih.mp ⟨m, hc⟩)
    · intro h
      cases h with
      | cons hr hs =>
        obtain ⟨m, hm⟩ := ih.mpr hs
        rw [hr]
        dsimp only
        rw [hm]
        exact ⟨_, rfl⟩

theorem readAccount_iff {A : ExchangeAdapter σ} :
    (∃ r x', readAccount A symbols x = (.ok r, x')) ↔ AccountReadable A symbols x := by
  unfold readAccount
  constructor
  · intro hex
    obtain ⟨r, x', h⟩ := hex
    split at h
    · cases h
    · rename_i account x₁ ha
      split at h
      · cases h
      · rename_i n x₂ hp
        split at h
        · cases h
        · rename_i m x₃ ho
          exact ⟨account, x₁, x₂, x₃, ha, (countOver_iff _).mp ⟨n, hp⟩, (countOver_iff _).mp ⟨m, ho⟩⟩
  · intro hex
    obtain ⟨account, x₁, x₂, x₃, ha, hp, ho⟩ := hex
    obtain ⟨n, hp⟩ := (countOver_iff fun p => p.isSome.toNat).mpr hp
    obtain ⟨m, ho⟩ := (countOver_iff List.length).mpr ho
    rw [ha]
    dsimp only
    rw [hp]
    dsimp only
    rw [ho]
    exact ⟨_, _, rfl⟩

/-- The stage returns exactly when the account can be read: fetches, refused
snapshots and analyses never end it. -/
theorem tickAll_iff {A : ExchangeAdapter σ} (f : MarketFeed) (cache : MarketDataCache)
    (session : Session) :
    (∃ r x', tickAll A symbols f cache session x = (.ok r, x')) ↔ AccountReadable A symbols x := by
  rw [← readAccount_iff]
  unfold tickAll
  constructor
  · intro hex
    obtain ⟨r, x', h⟩ := hex
    split at h
    · cases h
    · rename_i reads x₁ hr
      exact ⟨reads, x₁, hr⟩
  · intro hex
    obtain ⟨reads, x₁, hr⟩ := hex
    rw [hr]
    exact ⟨_, _, rfl⟩

end MarketDataCycleService

end FuturesBot
