import FlashSale.Lib.Date
import FlashSale.Redis.Conservation
import FlashSale.Shared.Queue

/-!
# Seeding a sale through the store

`SaleRedisStore.seed` parses the timestamps of the configuration before it calls `seed.lua`, so every
configuration in Redis carries parseable timestamps and their values (`SaleConfig.Parsed`), in every
state that script calls of the store reach (`parsed_saleAfter`).

`Date.parse` accepts formats of the host's choice besides the ISO one, so it is a parameter: what the
language promises of it is that its values are time values and that it reads back what `toISOString`
writes. `isoDate` is the one that accepts nothing else.
-/

namespace FlashSale

/-- `Date.parse`, with `none` for `NaN`. -/
structure JsDate where
  parse : String → Option ℤ
  abs_le_of_parse : ∀ {s t}, parse s = some t → |t| ≤ Date.MAX_TIME_VALUE
  parse_toISOString : ∀ {t}, |t| ≤ Date.MAX_TIME_VALUE → parse (Date.toISOString t) = some t

/-- A host that parses the ISO format only. -/
def isoDate : JsDate where
  parse := Date.parseISO
  abs_le_of_parse := Date.abs_le_of_parseISO
  parse_toISOString := Date.parseISO_toISOString

/-- `new Date(ms).toISOString()`. -/
def isoTime (ms : ℤ) : Except Failure String :=
  if |ms| ≤ Date.MAX_TIME_VALUE then .ok (Date.toISOString ms)
  else .error (.rangeError "Invalid time value")

structure SaleConfigInput where
  saleId : String
  name : String
  startsAt : String
  endsAt : String
  totalStock : ℤ
  stockRemaining : Option ℤ
  deriving DecidableEq, Repr

/-- The checks of `SaleRedisStore.seed` and the script call it then makes. -/
def seedCall (date : JsDate) (config : SaleConfigInput) : Except Failure ScriptCall := do
  assertSaleId config.saleId
  let unparseable := Failure.rangeError (s!"SaleRedisStore.seed: unparseable ISO timestamp " ++
    s!"(startsAt='{config.startsAt}', endsAt='{config.endsAt}')")
  let some startsAtMs := date.parse config.startsAt | throw unparseable
  let some endsAtMs := date.parse config.endsAt | throw unparseable
  if endsAtMs ≤ startsAtMs then
    throw (.rangeError (s!"SaleRedisStore.seed: endsAt ({config.endsAt}) must be after " ++
      s!"startsAt ({config.startsAt})"))
  return .seed ⟨config.saleId, config.name, config.startsAt, config.endsAt, startsAtMs, endsAtMs,
    config.totalStock⟩ config.stockRemaining

/-- The timestamps of the configuration parse to its times, which enclose a window. -/
structure SaleConfig.Parsed (date : JsDate) (cfg : SaleConfig) : Prop where
  startsAt : date.parse cfg.startsAt = some cfg.startsAtMs
  endsAt : date.parse cfg.endsAt = some cfg.endsAtMs
  window : cfg.startsAtMs < cfg.endsAtMs

/-- A script call as the worker and the API make it: a seed goes through the checks of the store,
with a total the environment schemas take and the default stock. -/
def ScriptCall.Issued (date : JsDate) (c : ScriptCall) : Prop :=
  ∀ cfg stock, c = .seed cfg stock → ∃ config : SaleConfigInput, seedCall date config = .ok c ∧
    0 ≤ config.totalStock ∧ config.totalStock ≤ Number.MAX_SAFE_INTEGER ∧
    config.stockRemaining = none

variable {date : JsDate}

theorem seedCall_ok {config : SaleConfigInput} {c : ScriptCall} (h : seedCall date config = .ok c) :
    ∃ cfg, c = .seed cfg config.stockRemaining ∧ cfg.totalStock = config.totalStock ∧
      cfg.Parsed date := by
  unfold seedCall at h
  cases hs : assertSaleId config.saleId with
  | error e => rw [hs] at h; cases h
  | ok x =>
    rw [hs] at h
    cases hstart : date.parse config.startsAt with
    | none => rw [hstart] at h; cases h
    | some startsAtMs =>
      rw [hstart] at h
      cases hend : date.parse config.endsAt with
      | none => rw [hend] at h; cases h
      | some endsAtMs =>
        rw [hend] at h
        by_cases hle : endsAtMs ≤ startsAtMs
        · simp only [if_pos hle] at h
          cases h
        · simp only [if_neg hle] at h
          obtain rfl := Except.ok.inj h
          exact ⟨_, rfl, rfl, ⟨hstart, hend, by simpa using hle⟩⟩

theorem ScriptCall.Issued.defaultSeed {c : ScriptCall} (h : c.Issued date) : c.DefaultSeed := by
  cases c with
  | seed cfg stock =>
    obtain ⟨config, hcall, htotal, hsafe, hstock⟩ := h cfg stock rfl
    obtain ⟨cfg', hc, hcfg, -⟩ := seedCall_ok hcall
    injection hc with hcfg' hstock'
    subst hcfg'
    exact ⟨by rw [hcfg]; exact htotal, by rw [hcfg]; exact hsafe, hstock'.trans hstock⟩
  | _ => trivial

theorem ScriptCall.Issued.parsed {cfg : SaleConfig} {stock : Option ℤ}
    (h : (ScriptCall.seed cfg stock).Issued date) : cfg.Parsed date := by
  obtain ⟨config, hcall, -⟩ := h cfg stock rfl
  obtain ⟨cfg', hc, -, hp⟩ := seedCall_ok hcall
  injection hc with hcfg'
  rw [hcfg']
  exact hp

/-- Every configuration the store wrote is parsed. -/
theorem parsed_run {s : Sale} {calls : List ScriptCall} (h : ∀ c ∈ calls, c.Issued date)
    (hs : ∀ cfg, s.config = some cfg → cfg.Parsed date) :
    ∀ cfg, (runScripts s calls).2.config = some cfg → cfg.Parsed date := by
  induction calls generalizing s with
  | nil => exact hs
  | cons c calls ih =>
    refine ih (fun d hd => h d (List.mem_cons_of_mem _ hd)) ?_
    intro cfg hcfg
    obtain he | ⟨cfg', stock, rfl, -, he⟩ := config_exec_cases s c
    · exact hs cfg (he.symm.trans hcfg)
    · obtain rfl := Option.some.inj (he.symm.trans hcfg)
      exact (h _ List.mem_cons_self).parsed

theorem parsed_saleAfter {calls : List ScriptCall} (h : ∀ c ∈ calls, c.Issued date)
    {cfg : SaleConfig} (hcfg : (saleAfter calls).config = some cfg) : cfg.Parsed date := by
  refine parsed_run h ?_ cfg hcfg
  intro cfg hcfg
  cases hcfg

/-- A sale of one unit for one second. -/
def auroraInput : SaleConfigInput where
  saleId := "flash-2026"
  name := "Aurora"
  startsAt := "1970-01-01T00:00:01.000Z"
  endsAt := "1970-01-01T00:00:02.000Z"
  totalStock := 1
  stockRemaining := none

/-- The seed of that sale. -/
def auroraSeed : ScriptCall :=
  .seed ⟨"flash-2026", "Aurora", "1970-01-01T00:00:01.000Z", "1970-01-01T00:00:02.000Z", 1000, 2000,
    1⟩ none

theorem auroraSeed_issued : auroraSeed.Issued isoDate := by
  have hstart : isoDate.parse auroraInput.startsAt = some 1000 := by decide +kernel
  have hend : isoDate.parse auroraInput.endsAt = some 2000 := by decide +kernel
  have hsale : assertSaleId auroraInput.saleId = .ok () := if_pos (by decide +kernel)
  intro cfg stock _
  refine ⟨auroraInput, ?_, by decide, by decide, rfl⟩
  unfold seedCall
  rw [hsale, hstart, hend]
  rfl

end FlashSale
