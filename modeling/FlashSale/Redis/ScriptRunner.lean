import FlashSale.Lib.Machine
import FlashSale.Lib.Prog
import FlashSale.Redis.Conservation
import FlashSale.Shared.SaleKeys
import Mathlib.Data.Set.Function

/-!
# Scripts over `EVALSHA`

`runScript` names a script by its hash and sends the text once when the server has lost it. The
server keeps a cache of texts, which anybody may flush at any time, and runs one command at a time.
A command or its answer can get lost; the client library sends a command without an answer again
once it is connected again, and tells the caller after a while that the command has failed. Neither
takes back what was sent, which may still arrive. Every other module takes a script to be one atomic
step of the keys. Here that is what any interleaving of `runScript`s amounts to: the keys are those
after the texts in the order in which they were run, a call ran its text at most once more than it
lost answers, and one that returned has the reply of a time it ran.

What Lua makes of a text is a parameter, and so is the hash.
-/

namespace FlashSale

/-- An entry of the script registry. -/
structure LuaScript where
  name : String
  src : String
  sha1 : String
  numKeys : ℕ

/-- `isNoScriptError` of a message. -/
def isNoScriptError (message : String) : Bool :=
  message.toList.tails.any ("NOSCRIPT".toList.isPrefixOf ·)

/-- The commands of `runScript`. -/
inductive RedisCommand where
  | evalsha (sha1 : String) (numKeys : ℕ) (flatArgs : List String)
  | eval (src : String) (numKeys : ℕ) (flatArgs : List String)

/-- A program of one client; its errors are messages. -/
abbrev RedisM (R α : Type) : Type := Prog RedisCommand (fun _ => R) String α

/-- The arguments of `runScript`. -/
structure Invocation where
  script : LuaScript
  keys : List String
  args : List String

def Invocation.flatArgs (c : Invocation) : List String := c.keys ++ c.args

/-- `runScript`. -/
def runScript {R : Type} (c : Invocation) : RedisM R R :=
  if c.keys.length ≠ c.script.numKeys then
    throw ("runScript: '" ++ c.script.name ++ "' expects " ++ toString c.script.numKeys ++
      " KEYS, received " ++ toString c.keys.length)
  else
    tryCatch (Prog.call (.evalsha c.script.sha1 c.script.numKeys c.flatArgs)) fun err =>
      if !isNoScriptError err then throw err
      else Prog.call (.eval c.script.src c.script.numKeys c.flatArgs)

/-- What a client does with the answer to its `EVALSHA`. -/
def afterSha {R : Type} (c : Invocation) : Except String R → RedisM R R
  | .ok r => .pure r
  | .error err =>
    if !isNoScriptError err then .throw err
    else Prog.call (.eval c.script.src c.script.numKeys c.flatArgs)

theorem afterSha_error {R : Type} {c : Invocation} {e : String} (h : isNoScriptError e = false) :
    afterSha (R := R) c (.error e) = .throw e :=
  if_pos (by rw [h]; rfl)

theorem runScript_cases {R : Type} (c : Invocation) :
    (c.keys.length ≠ c.script.numKeys ∧ ∃ e, runScript (R := R) c = .throw e) ∨
      c.keys.length = c.script.numKeys ∧ runScript c =
        .op (.evalsha c.script.sha1 c.script.numKeys c.flatArgs) (afterSha (R := R) c) := by
  unfold runScript
  split_ifs with h
  · exact .inl ⟨h, _, rfl⟩
  · refine .inr ⟨not_not.1 h, ?_⟩
    refine congrArg (Prog.op _) (funext fun r => ?_)
    cases r with
    | ok r => rfl
    | error e => rfl

/-! ## The server -/

/-- The keys and the script cache, from hash to text. -/
structure RedisServer (D : Type) where
  data : D
  scripts : String → Option String

def NO_MATCHING_SCRIPT : String := "NOSCRIPT No matching script. Please use EVAL."

theorem isNoScriptError_noMatchingScript : isNoScriptError NO_MATCHING_SCRIPT = true := by
  decide +kernel

section

variable {D R T : Type} (sha1 : String → String)
  (lua : String → ℕ → List String → T → D → Except String R × D)

/-- A command at the server, at a reading of its clock: what the text it runs replied, if it runs
one, and the server afterwards. -/
def RedisServer.receive (s : RedisServer D) (t : T) :
    RedisCommand → Option (Except String R) × RedisServer D
  | .evalsha sha numKeys flatArgs =>
    match s.scripts sha with
    | none => (none, s)
    | some src =>
      let (r, d) := lua src numKeys flatArgs t s.data
      (some r, { s with data := d })
  | .eval src numKeys flatArgs =>
    let (r, d) := lua src numKeys flatArgs t s.data
    (some r, ⟨d, Function.update s.scripts (sha1 src) (some src)⟩)

/-- A text was run for a client. -/
structure Execution (T R : Type) where
  client : ℕ
  time : T
  reply : Except String R

/-- The server, what every client has still to do, its commands of which a copy may still arrive, and
the texts run so far. -/
structure ScriptSystem (D R T : Type) where
  server : RedisServer D
  clients : ℕ → RedisM R R
  copies : ℕ → List RedisCommand
  log : List (Execution T R)

/-- A command arrives and so does its answer; a client sends its command again; a client is told that
its command has failed; a copy of a command arrives whose answer gets lost; the script cache is
flushed. -/
inductive ScriptEvent (T : Type) where
  | answered (client : ℕ) (time : T)
  | resent (client : ℕ)
  | givenUp (client : ℕ) (message : String)
  | late (client copy : ℕ) (time : T)
  | flush

/-- The client loses an answer. -/
def ScriptEvent.losesAnswerOf (i : ℕ) : ScriptEvent T → Bool
  | .late j _ _ => j = i
  | _ => false

namespace ScriptSystem

/-- A client learns about its command. -/
def learn (s : ScriptSystem D R T) (client : ℕ) (p : RedisM R R) : ScriptSystem D R T :=
  { s with clients := Function.update s.clients client p }

/-- A command that was sent is left on its way. -/
def leave (s : ScriptSystem D R T) (client : ℕ) (cmd : RedisCommand) : ScriptSystem D R T :=
  { s with copies := Function.update s.copies client (s.copies client ++ [cmd]) }

/-- A command arrives. -/
def arrive (s : ScriptSystem D R T) (client : ℕ) (t : T) (cmd : RedisCommand) :
    ScriptSystem D R T :=
  let (out, server) := s.server.receive sha1 lua t cmd
  { s with server, log := s.log ++ out.toList.map (Execution.mk client t) }

/-- A client without a connection sees some other message than that of a missing script. A command
that was left may arrive any number of times, as one that was given up is sent again too. -/
def step (s : ScriptSystem D R T) : ScriptEvent T → Option (ScriptSystem D R T)
  | .answered i t =>
    match s.clients i with
    | .op cmd k =>
      let out := (s.server.receive sha1 lua t cmd).1
      some ((s.arrive sha1 lua i t cmd).learn i (k (out.getD (.error NO_MATCHING_SCRIPT))))
    | _ => none
  | .resent i =>
    match s.clients i with
    | .op cmd _ => some (s.leave i cmd)
    | _ => none
  | .givenUp i message =>
    match s.clients i with
    | .op cmd k =>
      if isNoScriptError message then none
      else some ((s.leave i cmd).learn i (k (.error message)))
    | _ => none
  | .late i copy t => (s.copies i)[copy]?.map (s.arrive sha1 lua i t)
  | .flush => some { s with server := { s.server with scripts := fun _ => none } }

/-- Every client calls `runScript` on a server with these keys and this script cache. -/
def start (calls : ℕ → Invocation) (server : RedisServer D) : ScriptSystem D R T :=
  ⟨server, fun i => runScript (calls i), fun _ => [], []⟩

/-- The texts run for a client. -/
def ranFor (s : ScriptSystem D R T) (client : ℕ) : List (Execution T R) :=
  s.log.filter (·.client = client)

theorem learn_self (s : ScriptSystem D R T) (i : ℕ) : s.learn i (s.clients i) = s := by
  unfold learn
  rw [Function.update_eq_self]

end ScriptSystem

/-! ## Atomic scripts -/

/-- A script as one step of the keys. -/
def Invocation.atomic (c : Invocation) (t : T) (d : D) : Except String R × D :=
  lua c.script.src c.script.numKeys c.flatArgs t d

variable (calls : ℕ → Invocation)

/-- From the keys `d`, atomic scripts with the replies of the log lead to the keys `d'`. -/
def Replays (d : D) : List (Execution T R) → D → Prop
  | [], d' => d' = d
  | e :: log, d' => ((calls e.client).atomic lua e.time d).1 = e.reply ∧
    Replays ((calls e.client).atomic lua e.time d).2 log d'

variable {sha1 lua calls}

theorem Replays.concat {d d' : D} {log : List (Execution T R)} (h : Replays lua calls d log d')
    (i : ℕ) (t : T) :
    Replays lua calls d (log ++ [⟨i, t, ((calls i).atomic lua t d').1⟩])
      ((calls i).atomic lua t d').2 := by
  induction log generalizing d with
  | nil =>
    obtain rfl : d' = d := h
    exact ⟨rfl, rfl⟩
  | cons e log ih => exact ⟨h.1, ih h.2⟩

/-- A command of `runScript`. -/
def Invocation.Sends (c : Invocation) (cmd : RedisCommand) : Prop :=
  cmd = .evalsha c.script.sha1 c.script.numKeys c.flatArgs ∨
    cmd = .eval c.script.src c.script.numKeys c.flatArgs

/-- How far a call has come that ran its text so many times and lost so many answers. -/
inductive Progress (c : Invocation) (ran : List (Execution T R)) (lost : ℕ) : RedisM R R → Prop where
  | asks (hran : ran.length ≤ lost) : Progress c ran lost (runScript c)
  | sends (hran : ran.length ≤ lost) :
    Progress c ran lost (Prog.call (.eval c.script.src c.script.numKeys c.flatArgs))
  | returned (r : R) {e : Execution T R} (hran : ran.length ≤ lost + 1) (he : e ∈ ran)
    (hr : e.reply = .ok r) : Progress c ran lost (.pure r)
  | threw (e : String) (hran : ran.length ≤ lost + 1) : Progress c ran lost (.throw e)

namespace Progress

variable {c : Invocation} {ran : List (Execution T R)} {lost lost' : ℕ} {p : RedisM R R}
  {cmd : RedisCommand} {k : Except String R → RedisM R R}

theorem mono (h : Progress c ran lost p) (hlost : lost ≤ lost') : Progress c ran lost' p := by
  cases h with
  | asks hran => exact .asks (hran.trans hlost)
  | sends hran => exact .sends (hran.trans hlost)
  | returned r hran he hr => exact .returned r (by omega) he hr
  | threw e hran => exact .threw e (by omega)

theorem length_le (h : Progress c ran lost p) : ran.length ≤ lost + 1 := by
  cases h with
  | asks hran | sends hran => omega
  | returned r hran | threw e hran => exact hran

/-- A call that waits for an answer has lost the answers to all it ran. -/
theorem op (h : Progress c ran lost p) (hp : p = .op cmd k) :
    ran.length ≤ lost ∧
      (cmd = .evalsha c.script.sha1 c.script.numKeys c.flatArgs ∧ k = afterSha c ∨
        cmd = .eval c.script.src c.script.numKeys c.flatArgs ∧ k = Prog.ofExcept) := by
  cases h with
  | asks hran =>
    rcases runScript_cases (R := R) c with ⟨-, e, he⟩ | ⟨-, hrun⟩
    · rw [he] at hp
      cases hp
    · rw [hrun] at hp
      obtain ⟨rfl, rfl⟩ := Prog.op.inj hp
      exact ⟨hran, .inl ⟨rfl, rfl⟩⟩
  | sends hran =>
    obtain ⟨rfl, rfl⟩ := Prog.op.inj hp
    refine ⟨hran, .inr ⟨rfl, funext fun r => ?_⟩⟩
    cases r with
    | ok r => rfl
    | error e => rfl
  | returned r hran he hr => cases hp
  | threw e hran => cases hp

theorem sends_of_op (h : Progress c ran lost (.op cmd k)) : c.Sends cmd :=
  (h.op rfl).2.imp And.left And.left

/-- The text ran once more and the answer is lost, whatever the call waits for by now. -/
theorem late (h : Progress c ran lost p) (e : Execution T R) :
    Progress c (ran ++ [e]) (lost + 1) p := by
  have hlength : (ran ++ [e]).length = ran.length + 1 := List.length_append
  cases h with
  | asks hran => exact .asks (by omega)
  | sends hran => exact .sends (by omega)
  | returned r hran he hr => exact .returned r (by omega) (List.mem_append_left _ he) hr
  | threw message hran => exact .threw message (by omega)

/-- The text ran and the call has its reply, which asks for no other attempt. -/
theorem answered (h : Progress c ran lost (.op cmd k)) (e : Execution T R)
    (herror : ∀ message, e.reply = .error message → isNoScriptError message = false) :
    Progress c (ran ++ [e]) lost (k e.reply) := by
  obtain ⟨hran, hk⟩ := h.op rfl
  have hlength : (ran ++ [e]).length = ran.length + 1 := List.length_append
  cases hr : e.reply with
  | ok r =>
    have hend : Progress c (ran ++ [e]) lost (.pure r) :=
      .returned r (by omega) List.mem_concat_self hr
    rcases hk with ⟨-, rfl⟩ | ⟨-, rfl⟩
    · exact hend
    · exact hend
  | error message =>
    have hend : Progress c (ran ++ [e]) lost (.throw message) := .threw message (by omega)
    rcases hk with ⟨-, rfl⟩ | ⟨-, rfl⟩
    · rw [afterSha_error (herror message hr)]
      exact hend
    · exact hend

/-- The call is told that its command has failed. -/
theorem givenUp (h : Progress c ran lost (.op cmd k)) {message : String}
    (hmessage : isNoScriptError message = false) : Progress c ran lost (k (.error message)) := by
  obtain ⟨hran, hk⟩ := h.op rfl
  have hend : Progress c ran lost (.throw message) := .threw message (by omega)
  rcases hk with ⟨-, rfl⟩ | ⟨-, rfl⟩
  · rw [afterSha_error hmessage]
    exact hend
  · exact hend

/-- The server has no such script, so the call sends the text. -/
theorem missing (h : Progress c ran lost (.op cmd k))
    (hcmd : cmd = .evalsha c.script.sha1 c.script.numKeys c.flatArgs) :
    Progress c ran lost (k (.error NO_MATCHING_SCRIPT)) := by
  obtain ⟨hran, ⟨-, rfl⟩ | ⟨heval, -⟩⟩ := h.op rfl
  · unfold afterSha
    dsimp only
    rw [isNoScriptError_noMatchingScript, if_neg (by decide)]
    exact .sends hran
  · rw [hcmd] at heval
    cases heval

/-- A call that has returned has the reply of a time its text ran. -/
theorem pure {r : R} (h : Progress c ran lost (.pure r)) : ∃ e ∈ ran, e.reply = .ok r := by
  generalize hp : (Prog.pure r : RedisM R R) = p at h
  cases h with
  | asks hran =>
    rcases runScript_cases (R := R) c with ⟨-, e, he⟩ | ⟨-, hrun⟩
    · rw [he] at hp
      cases hp
    · rw [hrun] at hp
      cases hp
  | sends hran => cases hp
  | returned r' hran he hr =>
    obtain rfl := Prog.pure.inj hp
    exact ⟨_, he, hr⟩
  | threw e hran => cases hp

end Progress

/-! ## Every interleaving -/

variable (sha1) in
/-- A script cache that holds texts of the registry only, each under its hash. -/
def HonestCache (sources : Set String) (scripts : String → Option String) : Prop :=
  ∀ sha src, scripts sha = some src → src ∈ sources ∧ sha1 src = sha

variable (sha1) in
/-- The script is in the registry, under the hash of its text. -/
def Registered (sources : Set String) (script : LuaScript) : Prop :=
  script.src ∈ sources ∧ script.sha1 = sha1 script.src

namespace ScriptSystem

variable (sha1 lua calls) in
/-- What holds in every interleaving from the keys `d₀` in which the clients lost so many answers;
`sources` are the texts of the registry. -/
structure Atomic (sources : Set String) (d₀ : D) (lost : ℕ → ℕ) (s : ScriptSystem D R T) :
    Prop where
  scripts : HonestCache sha1 sources s.server.scripts
  replays : Replays lua calls d₀ s.log s.server.data
  sent : ∀ i, ∀ cmd ∈ s.copies i, (calls i).Sends cmd
  progress : ∀ i, Progress (calls i) (s.ranFor i) (lost i) (s.clients i)

/-- The system after the text of a client was run. -/
def ran (s : ScriptSystem D R T) (c : Invocation) (i : ℕ) (t : T)
    (lua : String → ℕ → List String → T → D → Except String R × D)
    (scripts : String → Option String) : ScriptSystem D R T :=
  { s with
    server := ⟨(c.atomic lua t s.server.data).2, scripts⟩
    log := s.log ++ [⟨i, t, (c.atomic lua t s.server.data).1⟩] }

variable {s s' : ScriptSystem D R T} {c : Invocation} {i j : ℕ} {t : T}
  {scripts : String → Option String} {sources : Set String} {d₀ : D} {lost lost' : ℕ → ℕ}

theorem ran_ranFor_self : (s.ran c i t lua scripts).ranFor i =
    s.ranFor i ++ [⟨i, t, (c.atomic lua t s.server.data).1⟩] := by
  simp [ranFor, ran, List.filter_append]

theorem ran_ranFor_of_ne (hj : j ≠ i) : (s.ran c i t lua scripts).ranFor j = s.ranFor j := by
  simp [ranFor, ran, List.filter_append, Ne.symm hj]

/-- A command of a call either finds no script, or runs the text of the call. -/
theorem arrive_cases (hsha : Set.InjOn sha1 sources)
    (hscripts : HonestCache sha1 sources s.server.scripts)
    (hreg : Registered sha1 sources c.script) (i : ℕ) (t : T) {cmd : RedisCommand}
    (hcmd : c.Sends cmd) :
    (cmd = .evalsha c.script.sha1 c.script.numKeys c.flatArgs ∧
      (s.server.receive sha1 lua t cmd).1 = none ∧ s.arrive sha1 lua i t cmd = s) ∨
    (s.server.receive sha1 lua t cmd).1 = some (c.atomic lua t s.server.data).1 ∧
      ∃ scripts, HonestCache sha1 sources scripts ∧
        s.arrive sha1 lua i t cmd = s.ran c i t lua scripts := by
  rcases hcmd with rfl | rfl
  · cases hfound : s.server.scripts c.script.sha1 with
    | none =>
      refine .inl ⟨rfl, ?_, ?_⟩
      · simp only [RedisServer.receive, hfound]
      · simp [arrive, RedisServer.receive, hfound]
    | some src =>
      obtain ⟨hsrc, hhash⟩ := hscripts _ _ hfound
      obtain rfl : src = c.script.src := hsha hsrc hreg.1 (hhash.trans hreg.2)
      refine .inr ⟨?_, s.server.scripts, hscripts, ?_⟩
      · simp only [RedisServer.receive, hfound]
        rfl
      · simp only [arrive, RedisServer.receive, hfound]
        rfl
  · refine .inr ⟨rfl, _, fun sha src hfound => ?_, rfl⟩
    by_cases hsame : sha = sha1 c.script.src
    · subst hsame
      rw [Function.update_self] at hfound
      obtain rfl := Option.some.inj hfound
      exact ⟨hreg.1, rfl⟩
    · rw [Function.update_of_ne hsame] at hfound
      exact hscripts sha src hfound

namespace Atomic

/-- A client learns something without its text having run. -/
theorem learn (h : s.Atomic sha1 lua calls sources d₀ lost) {p : RedisM R R}
    (hp : Progress (calls i) (s.ranFor i) (lost i) p) :
    (s.learn i p).Atomic sha1 lua calls sources d₀ lost := by
  refine ⟨h.scripts, h.replays, h.sent, fun j => ?_⟩
  show Progress (calls j) (s.ranFor j) (lost j) (Function.update s.clients i p j)
  by_cases hj : j = i
  · subst hj
    rw [Function.update_self]
    exact hp
  · rw [Function.update_of_ne hj]
    exact h.progress j

/-- A command of a client is left on its way. -/
theorem leave (h : s.Atomic sha1 lua calls sources d₀ lost) {cmd : RedisCommand}
    (hcmd : (calls i).Sends cmd) : (s.leave i cmd).Atomic sha1 lua calls sources d₀ lost := by
  refine ⟨h.scripts, h.replays, fun j => ?_, h.progress⟩
  show ∀ o ∈ Function.update s.copies i (s.copies i ++ [cmd]) j, (calls j).Sends o
  by_cases hj : j = i
  · subst hj
    rw [Function.update_self]
    intro o ho
    rcases List.mem_append.1 ho with ho | ho
    · exact h.sent j o ho
    · obtain rfl := List.mem_singleton.1 ho
      exact hcmd
  · rw [Function.update_of_ne hj]
    exact h.sent j

/-- The text of a client runs, and the client learns something. -/
theorem ran (h : s.Atomic sha1 lua calls sources d₀ lost)
    (hscripts : HonestCache sha1 sources scripts) (hlost : ∀ j, lost j ≤ lost' j) {p : RedisM R R}
    (hp : Progress (calls i) (s.ranFor i ++ [⟨i, t, ((calls i).atomic lua t s.server.data).1⟩])
      (lost' i) p) :
    ((s.ran (calls i) i t lua scripts).learn i p).Atomic sha1 lua calls sources d₀ lost' := by
  refine ⟨hscripts, h.replays.concat i t, h.sent, fun j => ?_⟩
  show Progress (calls j) ((s.ran (calls i) i t lua scripts).ranFor j) (lost' j)
    (Function.update s.clients i p j)
  by_cases hj : j = i
  · subst hj
    rw [Function.update_self, ran_ranFor_self]
    exact hp
  · rw [Function.update_of_ne hj, ran_ranFor_of_ne hj]
    exact (h.progress j).mono (hlost j)

variable (hsha : Set.InjOn sha1 sources) (hreg : ∀ i, Registered sha1 sources (calls i).script)
  (hlua : ∀ i (t : T) (d : D) e, ((calls i).atomic lua t d).1 = .error e →
    isNoScriptError e = false)

include hsha hreg hlua in
theorem step (h : s.Atomic sha1 lua calls sources d₀ lost) {e : ScriptEvent T}
    (hstep : s.step sha1 lua e = some s') :
    s'.Atomic sha1 lua calls sources d₀ fun i => lost i + (e.losesAnswerOf i).toNat := by
  cases e with
  | flush =>
    obtain rfl := Option.some.inj hstep
    exact ⟨fun _ _ hfound => (by cases hfound), h.replays, h.sent, h.progress⟩
  | resent i =>
    unfold ScriptSystem.step at hstep
    have hi := h.progress i
    cases hp : s.clients i with
    | pure a => simp [hp] at hstep
    | throw e => simp [hp] at hstep
    | op cmd k =>
      simp only [hp] at hstep hi
      obtain rfl := Option.some.inj hstep
      exact h.leave hi.sends_of_op
  | givenUp i message =>
    unfold ScriptSystem.step at hstep
    have hi := h.progress i
    cases hp : s.clients i with
    | pure a => simp [hp] at hstep
    | throw e => simp [hp] at hstep
    | op cmd k =>
      simp only [hp] at hstep hi
      split_ifs at hstep with hmessage
      obtain rfl := Option.some.inj hstep
      exact (h.leave hi.sends_of_op).learn (hi.givenUp (by simpa using hmessage))
  | answered i t =>
    unfold ScriptSystem.step at hstep
    have hi := h.progress i
    cases hp : s.clients i with
    | pure a => simp [hp] at hstep
    | throw e => simp [hp] at hstep
    | op cmd k =>
      simp only [hp] at hstep hi
      obtain rfl := Option.some.inj hstep
      rcases arrive_cases hsha h.scripts (hreg i) i t hi.sends_of_op with
        ⟨hcmd, hmiss, hsame⟩ | ⟨hreply, scripts, hscripts, hran⟩
      · rw [hmiss, hsame]
        exact h.learn (hi.missing hcmd)
      · rw [hreply, hran]
        exact h.ran hscripts (fun _ => le_rfl) (hi.answered ⟨i, t, _⟩ (hlua i t _))
  | late i copy t =>
    obtain ⟨cmd, hcmd, rfl⟩ := Option.map_eq_some_iff.1 hstep
    have hsent := h.sent i cmd (List.mem_of_getElem? hcmd)
    have hlost : ∀ j, lost j ≤ lost j +
        ((ScriptEvent.late i copy t).losesAnswerOf j).toNat := fun j => Nat.le_add_right _ _
    rcases arrive_cases hsha h.scripts (hreg i) i t hsent with
      ⟨-, -, hsame⟩ | ⟨-, scripts, hscripts, hran⟩
    · rw [hsame]
      exact ⟨h.scripts, h.replays, h.sent, fun j => (h.progress j).mono (hlost j)⟩
    · have hone : ((ScriptEvent.late i copy t).losesAnswerOf i).toNat = 1 := by
        simp [ScriptEvent.losesAnswerOf]
      rw [hran, ← learn_self (s.ran (calls i) i t lua scripts) i]
      refine h.ran hscripts hlost ?_
      rw [hone]
      exact (h.progress i).late _

end Atomic

end ScriptSystem

end

/-! ## The scripts of the store -/

section

variable (luaSrc sha1 : String → String)

/-- An entry of `LUA_SCRIPTS`; the texts and their hash are parameters. -/
def luaScript (name : String) (numKeys : ℕ) : LuaScript :=
  ⟨name, luaSrc name, sha1 (luaSrc name), numKeys⟩

/-- What the methods of `SaleRedisStore` hand to `runScript`. -/
def ScriptCall.invocation (keys : SaleKeys) : ScriptCall → Invocation
  | .seed cfg stockRemaining => ⟨luaScript luaSrc sha1 "seed" 2, [keys.config, keys.stock],
      [cfg.saleId, cfg.name, cfg.startsAt, cfg.endsAt, toString cfg.startsAtMs,
        toString cfg.endsAtMs, toString cfg.totalStock,
        toString (stockRemaining.getD cfg.totalStock)]⟩
  | .purchase u r _ => ⟨luaScript luaSrc sha1 "purchase" 4,
      [keys.config, keys.stock, keys.buyers, keys.reservations], [u, r]⟩
  | .compensate u r => ⟨luaScript luaSrc sha1 "compensate" 4,
      [keys.config, keys.stock, keys.buyers, keys.reservations], [u, r]⟩
  | .compareRestore u r t => ⟨luaScript luaSrc sha1 "compare-restore-reservation" 2,
      [keys.buyers, keys.reservations], [u, r, toString t]⟩
  | .reconcileMembership u => ⟨luaScript luaSrc sha1 "reconcile-membership" 2,
      [keys.buyers, keys.reservations], [u]⟩
  | .reconcileState => ⟨luaScript luaSrc sha1 "reconcile-state" 3,
      [keys.config, keys.stock, keys.reservations], []⟩
  | .status _ => ⟨luaScript luaSrc sha1 "status" 2, [keys.config, keys.stock], []⟩
  | .inspect u => ⟨luaScript luaSrc sha1 "inspect-reservation-membership" 2,
      [keys.buyers, keys.reservations], [u]⟩

/-- The call at another reading of the clock of Redis. -/
def ScriptCall.at (t : RedisTime) : ScriptCall → ScriptCall
  | .purchase u r _ => .purchase u r t
  | .status _ => .status t
  | c => c

variable {luaSrc sha1} {keys : SaleKeys} {calls : ℕ → ScriptCall}
  {lua : String → ℕ → List String → RedisTime → Sale → Except String ScriptReply × Sale}

/-- Scripts that Lua runs as they are modelled replay as a run of the model. -/
theorem Replays.runScripts (hmodel : ∀ i t s, ((calls i).invocation luaSrc sha1 keys).atomic lua t s =
      (.ok (((calls i).at t).exec s).1, (((calls i).at t).exec s).2))
    {s s' : Sale} {log : List (Execution RedisTime ScriptReply)}
    (h : Replays lua (fun i => (calls i).invocation luaSrc sha1 keys) s log s') :
    log.map (·.reply) =
        (FlashSale.runScripts s (log.map fun e => (calls e.client).at e.time)).1.map .ok ∧
      s' = (FlashSale.runScripts s (log.map fun e => (calls e.client).at e.time)).2 := by
  induction log generalizing s with
  | nil => exact ⟨rfl, h⟩
  | cons e log ih =>
    obtain ⟨hreply, hrest⟩ := h
    rw [hmodel] at hreply hrest
    obtain ⟨hreplies, hs'⟩ := ih hrest
    refine ⟨?_, hs'⟩
    rw [List.map_cons, ← hreply, hreplies]
    rfl

end

/-! ## A buyer whose answer is lost -/

end FlashSale
