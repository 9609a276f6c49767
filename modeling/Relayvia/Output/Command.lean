import Relayvia.Bookkeeping.Paths
import Relayvia.Output.Sanitize

/-!
# The output of a command

What a Runner reports after a command has ended, and what the server stores of it.
-/

namespace Relayvia

variable {env : Env} {T : TextTables} {now : Time} {db db' : RunRecord} {task : TaskId}

def maxCommandOutputBytes : ℕ := 32000

/-- `_safe_output`. -/
def safeOutput (T : TextTables) (value : List UInt8) : String :=
  let text := redactInline T (Python.decodeUtf8 (value.take maxCommandOutputBytes))
  String.ofList (if maxCommandOutputBytes < value.length then text ++ ('\n' :: truncated.toList)
    else text)

/-- The result of `execute_task` for a command that has ended, its artifacts uploaded. -/
def commandResult (T : TextTables) (exitCode : ℤ) (stdout stderr : List UInt8)
    (workspaceMeta : Dict) (artifacts : List Json) : Dict :=
  let stdout := safeOutput T stdout
  let stderr := safeOutput T stderr
  let metadata := Dict.merge [("exit_code", .int exitCode), ("stderr", .str stderr)] workspaceMeta
  if exitCode ≠ 0 then
    [("ok", .bool false),
      ("error", .obj [("code", .str "RUNNER_EXIT_NONZERO"),
        ("message", .str ("Command exited with status " ++ toString exitCode)),
        ("retryable", .bool true),
        ("details", .obj [("exit_code", .int exitCode),
          ("stderr", .str (String.ofList (stderr.toList.drop (stderr.length - 2000))))])]),
      ("metadata", .obj metadata), ("artifacts", .arr artifacts)]
  else
    [("ok", .bool true),
      ("output", .obj [("stdout", .str stdout), ("exit_code", .int exitCode)]),
      ("metadata", .obj metadata), ("artifacts", .arr artifacts)]

/-- The server's bound on the text of stdout: the rest of the JSON object has 30 bytes. -/
def FitsTrace (T : TextTables) (stdout : List UInt8) : Prop :=
  30 + Python.utf8Length (Python.escapeText (redactInline T (safeOutput T stdout).toList)) ≤
    maxTraceBytes

instance (T : TextTables) (stdout : List UInt8) : Decidable (FitsTrace T stdout) := by
  unfold FitsTrace
  infer_instance

theorem dumps_command (s : String) :
    Python.dumps T.floatText (.obj [("stdout", .str s), ("exit_code", .int 0)]) =
      some ("\x7b\"stdout\": \"".toList ++ (Python.escapeText s.toList ++
        "\", \"exit_code\": 0\x7d".toList)) := by
  have hstdout : Python.quoteText "stdout".toList = "\"stdout\"".toList := by decide
  have hexit : Python.quoteText "exit_code".toList = "\"exit_code\"".toList := by decide
  have hbracket : Python.bracket '\x7b' '\x7d'
      [Python.quoteText "stdout".toList ++ [':', ' '] ++ Python.quoteText s.toList,
        Python.quoteText "exit_code".toList ++ [':', ' '] ++ ['0']] =
      "\x7b\"stdout\": \"".toList ++ (Python.escapeText s.toList ++
        "\", \"exit_code\": 0\x7d".toList) := by
    rw [hstdout, hexit]
    simp [Python.bracket, Python.quoteText, List.intercalate]
  rw [← hbracket]
  rfl

theorem sanitizeValue_command (s : String) :
    sanitizeValue T [] (.obj [("stdout", .str s), ("exit_code", .int 0)]) =
      .obj [("stdout", .str (redactText T [] s)), ("exit_code", .int 0)] := by
  have hstdout : isSensitiveKey T "stdout" = false := by
    rw [isSensitiveKey_of_ascii (by decide)]
    decide
  have hexit : isSensitiveKey T "exit_code" = false := by
    rw [isSensitiveKey_of_ascii (by decide)]
    decide
  simp [sanitizeValue, sanitizeFields, hstdout, hexit]

/-- The sanitizer on the output of a command that has returned 0. -/
theorem sanitizeOutput_command (stdout : List UInt8) :
    sanitizeOutput T [] (.obj [("stdout", .str (safeOutput T stdout)), ("exit_code", .int 0)]) =
      if FitsTrace T stdout then
        [("stdout", .str (redactText T [] (safeOutput T stdout))), ("exit_code", .int 0)]
      else [("trace", .str truncated)] := by
  have hsize (s : List Char) : Python.utf8Length ("\x7b\"stdout\": \"".toList ++
      (s ++ "\", \"exit_code\": 0\x7d".toList)) = 30 + Python.utf8Length s := by
    have hopen : Python.utf8Length "\x7b\"stdout\": \"".toList = 12 := by decide
    have hclose : Python.utf8Length "\", \"exit_code\": 0\x7d".toList = 18 := by decide
    rw [Python.utf8Length_append, Python.utf8Length_append, hopen, hclose]
    omega
  have htext : (redactText T [] (safeOutput T stdout)).toList =
      redactInline T (safeOutput T stdout).toList := by
    rw [redactText_nil, String.toList_ofList]
  unfold sanitizeOutput sanitize
  simp only [sanitizeValue_command, dumps_command, hsize, htext]
  by_cases h : FitsTrace T stdout
  · rw [if_pos h]
    have hle := h
    unfold FitsTrace at hle
    simp only [if_pos hle]
  · rw [if_neg h]
    have hlt := h
    unfold FitsTrace at hlt
    simp only [if_neg hlt]

/-! ## The stored output -/

/-- References to the two values of a command resolve. -/
def KeepsStructure (output : Dict) : Prop :=
  (Dict.get? output "stdout").isSome = true ∧ (Dict.get? output "exit_code").isSome = true

/-- The output keys of the artifacts of a result. -/
def RegisteredKeys (env : Env) (artifacts : List Json) (keys : Dict) : Prop :=
  (artifacts = [] ∧ keys = []) ∨
    ∃ references, env.registerArtifacts (.arr artifacts) = .ok (references, keys)

theorem keepsStructure_merge {a b : Dict} :
    KeepsStructure (Dict.merge a b) ↔
      ((Dict.get? b "stdout").isSome = true ∨ (Dict.get? a "stdout").isSome = true) ∧
        ((Dict.get? b "exit_code").isSome = true ∨ (Dict.get? a "exit_code").isSome = true) := by
  simp only [KeepsStructure, Dict.get?_merge, Option.isSome_or, Bool.or_eq_true]

variable {stdout stderr : List UInt8} {workspaceMeta : Dict} {artifacts : List Json}
  {runnerId leaseToken : String}

theorem registeredKeys {t : ExecutionTask}
    (s : SubmittedValues (env.sanitizing T) t
      (commandResult T 0 stdout stderr workspaceMeta artifacts)) :
    RegisteredKeys env artifacts s.outputMap := by
  have hvalues := s.artifacts
  have hretry : shouldRetry (env.sanitizing T) t
      (commandResult T 0 stdout stderr workspaceMeta artifacts) = false := by
    simp [shouldRetry, commandResult, Dict.truthyAt, Dict.get?, Json.truthy]
  rw [hretry] at hvalues
  cases artifacts with
  | nil =>
      left
      have hnil : (.ok ([], []) : Except Raised (List Json × Dict)) =
          .ok (s.references, s.outputMap) := hvalues
      exact ⟨rfl, (Prod.mk.inj (Except.ok.inj hnil)).2.symm⟩
  | cons item items =>
      right
      change ((env.registerArtifacts (.arr (item :: items))).mapError Raised.artifactError) =
        .ok (s.references, s.outputMap) at hvalues
      cases hregister : env.registerArtifacts (.arr (item :: items)) with
      | ok values =>
          rw [hregister] at hvalues
          cases hvalues
          exact ⟨s.references, rfl⟩
      | error e =>
          rw [hregister] at hvalues
          cases hvalues

/-- The output that an accepted submission leaves. -/
theorem submitted_output (hc : Coupled db)
    (hsubmit : RunOp.exec (env.sanitizing T) (.runnerSubmit now runnerId task leaseToken
      (commandResult T 0 stdout stderr workspaceMeta artifacts)) db = .ok (true, db')) :
    ∃ n t keys, db'.Rows task n t ∧ RegisteredKeys env artifacts keys ∧
      n.output = some (Dict.merge
        (if FitsTrace T stdout then
          [("stdout", .str (redactText T [] (safeOutput T stdout))), ("exit_code", .int 0)]
        else [("trace", .str truncated)]) keys) := by
  obtain ⟨n, t, n', t', -, hrows, hchange⟩ := RunOp.exec_moved_cell hc rfl hsubmit
  obtain ⟨s, hreported⟩ := hchange.of_submit
  have hok : Dict.truthyAt (commandResult T 0 stdout stderr workspaceMeta artifacts) "ok" = true :=
    rfl
  rw [Reported, if_pos hok] at hreported
  refine ⟨n', t', s.outputMap, hrows, registeredKeys s, ?_⟩
  rw [hreported.1, ← sanitizeOutput_command]
  rfl

/-- A command that returned 0 leaves an output with its keys exactly when its stdout fits,
its artifacts aside.  Otherwise the marker replaces all of it. -/
theorem command_output_iff (hdb : Reachable (env.sanitizing T) db)
    (hsubmit : RunOp.exec (env.sanitizing T) (.runnerSubmit now runnerId task leaseToken
      (commandResult T 0 stdout stderr workspaceMeta artifacts)) db = .ok (true, db')) :
    ∃ n t output keys, db'.Rows task n t ∧ n.output = some output ∧
      RegisteredKeys env artifacts keys ∧
      (KeepsStructure output ↔ FitsTrace T stdout ∨ KeepsStructure keys) ∧
      output = Dict.merge
        (if FitsTrace T stdout then
          [("stdout", .str (redactText T [] (safeOutput T stdout))), ("exit_code", .int 0)]
        else [("trace", .str truncated)]) keys := by
  obtain ⟨n, t, keys, hrows, hkeys, houtput⟩ := submitted_output hdb.coupled hsubmit
  refine ⟨n, t, _, keys, hrows, houtput, hkeys, ?_, rfl⟩
  rw [keepsStructure_merge]
  split
  · next hfits => simp [hfits, Dict.get?]
  · next hfits => simp [hfits, Dict.get?, KeepsStructure]

/-- A stdout of more than 31,970 bytes in which nothing can be redacted does not fit. -/
theorem not_fitsTrace (hlong : 31970 < stdout.length)
    (hplain : ∀ b ∈ stdout, b ≠ 0x3A ∧ b ≠ 0x3D) : ¬FitsTrace T stdout := by
  have hdecoded : ∀ c ∈ Python.decodeUtf8 (stdout.take maxCommandOutputBytes),
      c ≠ ':' ∧ c ≠ '=' := by
    intro c hc
    have hbyte (hlt : c.toNat < 0x80) : ∃ b ∈ stdout, b.toNat = c.toNat := by
      obtain ⟨b, hb, heq⟩ := Python.ascii_of_mem_decodeUtf8 hc hlt
      exact ⟨b, List.mem_of_mem_take hb, heq⟩
    constructor
    · rintro rfl
      obtain ⟨b, hb, heq⟩ := hbyte (by decide)
      exact (hplain b hb).1 (UInt8.toNat_inj.mp heq)
    · rintro rfl
      obtain ⟨b, hb, heq⟩ := hbyte (by decide)
      exact (hplain b hb).2 (UInt8.toNat_inj.mp heq)
  have hbytes := Python.length_le_decodeUtf8 (stdout.take maxCommandOutputBytes)
  rw [List.length_take] at hbytes
  have htext : ∃ tail : List Char, (∀ c ∈ tail, c ≠ ':' ∧ c ≠ '=') ∧ (safeOutput T stdout).toList =
      Python.decodeUtf8 (stdout.take maxCommandOutputBytes) ++ tail := by
    simp only [safeOutput, redactInline_of_no_sign hdecoded, String.toList_ofList]
    split
    · exact ⟨"\n***TRUNCATED***".toList, by simp, rfl⟩
    · exact ⟨[], by simp, (List.append_nil _).symm⟩
  obtain ⟨tail, htail, htext⟩ := htext
  have hredacted : redactInline T (safeOutput T stdout).toList = (safeOutput T stdout).toList := by
    apply redactInline_of_no_sign
    rw [htext]
    intro c hc
    rcases List.mem_append.mp hc with hc | hc
    · exact hdecoded c hc
    · exact htail c hc
  have hescaped := Python.utf8Length_le_escapeText (safeOutput T stdout).toList
  have hlength : Python.utf8Length (Python.decodeUtf8 (stdout.take maxCommandOutputBytes)) ≤
      Python.utf8Length (safeOutput T stdout).toList := by
    rw [htext, Python.utf8Length_append]
    exact Nat.le_add_right _ _
  unfold FitsTrace
  rw [hredacted]
  simp only [maxCommandOutputBytes, maxTraceBytes] at *
  omega

/-! ## Concrete commands -/

/-- Tables that answer for ASCII only. -/
def asciiTables : TextTables where
  isAlnum _ := false
  lower s := s
  floatText _ := ""

/-- A Runner submits a result of the scheduled tool of `shellRun`. -/
theorem submit_shellRun (stdout : List UInt8) : ∃ db db',
    Reachable (plainEnv.sanitizing asciiTables) db ∧
    RunOp.exec (plainEnv.sanitizing asciiTables)
      (.runnerSubmit 8 "r" 0 "t" (commandResult asciiTables 0 stdout [] [] [])) db =
        .ok (true, db') := by
  have hcreate : createRun (plainEnv.sanitizing asciiTables) 0 "run" shellGraph [] [] =
      .ok shellRun := rfl
  obtain ⟨db₁, h₁, db₂, h₂, db₃, h₃, db₄, h₄⟩ :
      ∃ db₁, RunOp.exec (plainEnv.sanitizing asciiTables) (.startRun 3) shellRun =
          .ok (true, db₁) ∧
        ∃ db₂, RunOp.exec (plainEnv.sanitizing asciiTables) (.schedule 4) db₁ = .ok (true, db₂) ∧
        ∃ db₃, RunOp.exec (plainEnv.sanitizing asciiTables) (.runnerClaim 6 makeRunner "t" 60 0)
          db₂ = .ok (true, db₃) ∧
        ∃ db₄, RunOp.exec (plainEnv.sanitizing asciiTables)
          (.runnerSubmit 8 "r" 0 "t" (commandResult asciiTables 0 stdout [] [] [])) db₃ =
            .ok (true, db₄) :=
    ⟨_, rfl, _, rfl, _, rfl, _, rfl⟩
  exact ⟨db₃, db₄, (((History.created hcreate).step h₁).step h₂ |>.step h₃).reachable, h₄⟩

/-- The line `ok` on stdout arrives. -/
theorem command_output_iff_shellRun : ∃ db db',
    Reachable (plainEnv.sanitizing asciiTables) db ∧
    RunOp.exec (plainEnv.sanitizing asciiTables)
      (.runnerSubmit 8 "r" 0 "t" (commandResult asciiTables 0 [0x6F, 0x6B, 0x0A] [] [] [])) db =
        .ok (true, db') ∧
    ∃ n t output, db'.Rows 0 n t ∧ n.output = some output ∧ KeepsStructure output := by
  obtain ⟨db, db', hdb, hsubmit⟩ := submit_shellRun [0x6F, 0x6B, 0x0A]
  obtain ⟨n, t, output, keys, hrows, houtput, -, hkeeps, -⟩ := command_output_iff hdb hsubmit
  have hfits : FitsTrace asciiTables [0x6F, 0x6B, 0x0A] := by decide
  exact ⟨db, db', hdb, hsubmit, n, t, output, hrows, houtput, hkeeps.mpr (.inl hfits)⟩

/-- 32,001 times the letter `a`: the Runner clips to its limit, and then nothing of the
output is left. -/
theorem not_command_output_kept : ∃ db db',
    Reachable (plainEnv.sanitizing asciiTables) db ∧
    RunOp.exec (plainEnv.sanitizing asciiTables)
      (.runnerSubmit 8 "r" 0 "t"
        (commandResult asciiTables 0 (List.replicate 32001 0x61) [] [] [])) db =
        .ok (true, db') ∧
    ∃ n t, db'.Rows 0 n t ∧ n.output = some [("trace", .str truncated)] ∧
      ¬KeepsStructure [("trace", .str truncated)] := by
  obtain ⟨db, db', hdb, hsubmit⟩ := submit_shellRun (List.replicate 32001 0x61)
  obtain ⟨n, t, keys, hrows, hkeys, houtput⟩ := submitted_output hdb.coupled hsubmit
  have hlong : ¬FitsTrace asciiTables (List.replicate 32001 0x61) := by
    apply not_fitsTrace
    · rw [List.length_replicate]
      omega
    · intro b hb
      rw [List.eq_of_mem_replicate hb]
      decide
  have hnone : keys = [] := by
    rcases hkeys with ⟨-, h⟩ | ⟨references, h⟩
    · exact h
    · exact (Prod.mk.inj (Except.ok.inj h)).2.symm
  rw [if_neg hlong, hnone] at houtput
  exact ⟨db, db', hdb, hsubmit, n, t, hrows, houtput, by simp [KeepsStructure, Dict.get?]⟩

end Relayvia
