import BlockData.CommandLine.Run
import BlockData.Proofs.Chain.Kept
import BlockData.Proofs.Chain.Stages

/-!
# Upgrades that are fed into each other

An upgrade may print a compound on its way to the newest version, and another run may read it
and go on from there.  The second run finds the compound as the first one has left it, in
whatever layout it was printed, so that the two runs are one upgrade in stages.

* `upgradeBy_upTo` is about compounds, `upgrade_upTo` about the command;
* `upgrade_piped` is about runs of the program.
-/

namespace BlockData.CommandLine

/-! ## The command in parts -/

/-- A compound with the version that the arguments give it, if they give one. -/
def withSource (source : Option Version) (tag : Compound) : Compound :=
  match source with
  | some version => tag.insert "version" (.int version.stored)
  | none => tag

theorem kept_withSource (source : Option Version) {tag : Compound} (h : tag.Kept) :
    (withSource source tag).Kept := by
  cases source with
  | none => exact h
  | some version => exact h.insert "version" (Tag.kept_int _)

/-- The compound that an upgrade leaves, if there is a block state in the one given. -/
def upgradeBy (chain : Chain) (tag : Compound) : Except Failure Compound :=
  match (chain.upgradeTag tag).value with
  | (some _, tag) => .ok tag
  | (none, _) => .error .unnamed

/-- The command loads the chain, reads the compound and upgrades it. -/
theorem upgrade_eq (s : Surroundings) (options : Options) (input : String)
    (source : Option Version) :
    upgrade s options input source = (do
      let chain ← loadChain s options
      let tag ← readTag s input
      upgradeBy chain (withSource source tag)) :=
  rfl

/-- Whether there is a block state to upgrade does not depend on the chain. -/
theorem isOk_upgradeBy (chain : Chain) (tag : Compound) :
    (upgradeBy chain tag).isOk = (BlockState.ofTag? tag).value.isSome := by
  rw [← chain.isSome_upgradeTag tag, upgradeBy]
  rcases (chain.upgradeTag tag).value with ⟨_ | version, result⟩ <;> rfl

/-! ## Stages -/

theorem kept_of_upgradeBy {chain : Chain} {tag stage : Compound} (h : tag.Kept)
    (hstage : upgradeBy chain tag = .ok stage) : stage.Kept := by
  have hkept := chain.kept_upgradeTag h
  unfold upgradeBy at hstage
  split at hstage
  · next heq =>
    obtain rfl := Except.ok.inj hstage
    rwa [heq] at hkept
  · simp at hstage

/-- The chain up to a bound and then the whole chain do what the whole chain does, also where
there is no block state to upgrade. -/
theorem upgradeBy_upTo {chain : Chain} (h : chain.FromDocuments) (limit : Version)
    {tag : Compound} (distinct : tag.Distinct) :
    (do upgradeBy chain (← upgradeBy (chain.upTo limit) tag)) = upgradeBy chain tag := by
  have hstages := h.upgradeTag_upTo limit distinct
  cases hread : (BlockState.ofTag? tag).value with
  | none =>
    rw [upgradeBy, upgradeBy, Chain.value_upgradeTag_of_none _ hread,
      Chain.value_upgradeTag_of_none _ hread]
    rfl
  | some state =>
    have hfirst : upgradeBy (chain.upTo limit) tag =
        .ok ((chain.upTo limit).upgradeTag tag).value.2 := by
      rw [upgradeBy, Chain.value_upgradeTag_of_some _ hread]
    rw [hfirst]
    show upgradeBy chain _ = _
    rw [upgradeBy, hstages, upgradeBy]

/-! ## The command -/

/-- Whether schemas are left out makes no difference to whether there is a chain. -/
theorem loadChain_limit (s : Surroundings) (directory : String) (limit : Version)
    (pretty pretty' : Bool) :
    loadChain s ⟨⟨directory, some limit⟩, pretty⟩ =
      (loadChain s ⟨⟨directory, none⟩, pretty'⟩).map (·.upTo limit) := by
  simp only [loadChain, Chain.value_load_some]
  cases (Chain.load ⟨directory, none⟩ (s.walk? directory)).value <;> rfl

theorem fromDocuments_of_loadChain {s : Surroundings} {options : Options} {chain : Chain}
    (h : loadChain s options = .ok chain) : chain.FromDocuments := by
  unfold loadChain at h
  split at h
  · next loaded hload =>
    obtain rfl := Except.ok.inj h
    exact Chain.fromDocuments_of_load hload
  · simp at h

theorem readTag_eq_ok_iff {s : Surroundings} {source : String} {tag : Compound} :
    readTag s source = .ok tag ↔
      ∃ text, readSource s source = .ok text ∧ Compound.read? text = some tag := by
  unfold readTag
  cases readSource s source with
  | error failure => simp [bind, Except.bind]
  | ok text => cases hread : Compound.read? text <;> simp [bind, Except.bind, hread]

theorem kept_of_readTag {s : Surroundings} {input : String} {tag : Compound}
    (h : readTag s input = .ok tag) (hexact : tag.isExact) : tag.Kept := by
  obtain ⟨text, -, hread⟩ := readTag_eq_ok_iff.1 h
  exact Compound.kept_of_read? hread hexact

/-- What is printed for a compound. -/
def printed (pretty : Bool) (tag : Compound) : String :=
  tag.toJson.print (if pretty then .indented else .compact) ++ "\n"

/-- The same surroundings with another input. -/
def Surroundings.withInput (s : Surroundings) (text : String) : Surroundings :=
  { s with input? := some text }

/-- A kept compound is found again in the input. -/
theorem readTag_printed (s : Surroundings) (pretty : Bool) {tag : Compound} (h : tag.Kept) :
    readTag (s.withInput (printed pretty tag)) "-" = .ok tag := by
  have hending : ∀ c ∈ ['\n'], Json.isSpace c := by simp [Json.isSpace]
  have hread := h.read?_render (if pretty then .indented else .compact) hending
  have htext : Compound.read? (printed pretty tag) = some tag := by
    rwa [String.ofList_append] at hread
  exact readTag_eq_ok_iff.2 ⟨_, rfl, htext⟩

/-- An upgrade up to a bound that is printed, read and upgraded again is one upgrade, also where
it fails. -/
theorem upgrade_upTo (s : Surroundings) (directory input : String) (limit : Version)
    (source : Option Version) (indented pretty : Bool)
    (hexact : ∀ tag, readTag s input = .ok tag → tag.isExact) :
    (do
      let stage ← upgrade s ⟨⟨directory, some limit⟩, indented⟩ input source
      upgrade (s.withInput (printed indented stage)) ⟨⟨directory, none⟩, pretty⟩ "-" none) =
    upgrade s ⟨⟨directory, none⟩, pretty⟩ input source := by
  simp only [upgrade_eq, loadChain_limit s directory limit indented pretty]
  cases hload : loadChain s ⟨⟨directory, none⟩, pretty⟩ with
  | error e => rfl
  | ok chain =>
    cases hread : readTag s input with
    | error e => rfl
    | ok tag =>
      have hkept := kept_withSource source (kept_of_readTag hread (hexact tag hread))
      have hstages := upgradeBy_upTo (fromDocuments_of_loadChain hload) limit hkept.distinct
      show (do
        let stage ← upgradeBy (chain.upTo limit) (withSource source tag)
        let chain ← loadChain s ⟨⟨directory, none⟩, pretty⟩
        let tag ← readTag (s.withInput (printed indented stage)) "-"
        upgradeBy chain tag) = upgradeBy chain (withSource source tag)
      -- by way of the stage under the limit the chain leads to the same end
      rw [hload, ← hstages]
      cases hstage : upgradeBy (chain.upTo limit) (withSource source tag) with
      | error e => rfl
      | ok stage =>
        show (do
          let tag ← readTag (s.withInput (printed indented stage)) "-"
          upgradeBy chain tag) = upgradeBy chain stage
        -- the second upgrade reads the stage as it was
        rw [readTag_printed s indented (kept_of_upgradeBy hkept hstage)]
        rfl

/-- A bound makes no difference to whether an upgrade fails. -/
theorem isOk_upgrade_limit (s : Surroundings) (directory input : String) (limit : Version)
    (source : Option Version) (indented pretty : Bool) :
    (upgrade s ⟨⟨directory, some limit⟩, indented⟩ input source).isOk =
      (upgrade s ⟨⟨directory, none⟩, pretty⟩ input source).isOk := by
  simp only [upgrade_eq, loadChain_limit s directory limit indented pretty]
  cases loadChain s ⟨⟨directory, none⟩, pretty⟩ with
  | error e => rfl
  | ok chain =>
    cases readTag s input with
    | error e => rfl
    | ok tag =>
      exact (isOk_upgradeBy (chain.upTo limit) _).trans (isOk_upgradeBy chain _).symm

/-! ## Runs -/

/-- What a run writes to its output. -/
def Outcome.output : Outcome → String
  | .printed text => text
  | .failed _ | .misused => ""

/-- A run whose input is the output of another run. -/
def pipe (s : Surroundings) (environment : String → Option String)
    (first second : List String) : Outcome :=
  run (s.withInput (run s environment first).output) environment second

/-- What the outcome of an upgrade is. -/
theorem run_upgrade {s : Surroundings} {environment : String → Option String}
    {arguments : List String} {options : Options} {input : String} {source : Option Version}
    (h : Request.read? environment arguments = some (.run options (.upgrade input source))) :
    run s environment arguments =
      match upgrade s options input source with
      | .ok tag => .printed (printed options.pretty tag)
      | .error failure => .failed failure := by
  rw [run, h]
  show respond s _ = _
  simp only [respond, result, Except.map]
  cases upgrade s options input source <;> rfl

/-- Where nothing is printed, nothing can be upgraded. -/
theorem upgrade_nothing (s : Surroundings) (options : Options) :
    ∃ failure, upgrade (s.withInput "") options "-" none = .error failure := by
  have htext : Compound.read? "" = none := by
    simp [Compound.read?, Json.parseWithin?, Json.Token.lex, Json.Token.lexAfter,
      Json.Token.nesting, Json.Token.nestingFrom, Json.ofTokens?, Json.Parser.run,
      Json.Parser.State.start, Json.Parser.State.result?]
  have hread : readTag (s.withInput "") "-" = .error (.noTagTree "-") := by
    show (Compound.read? "").elim _ _ = _
    rw [htext]
    rfl
  rw [upgrade_eq, hread]
  cases loadChain (s.withInput "") options with
  | error e => exact ⟨e, rfl⟩
  | ok chain => exact ⟨.noTagTree "-", rfl⟩

/-- A run ends with zero exactly if something is printed. -/
theorem exitCode_eq_zero_iff {outcome : Outcome} :
    outcome.exitCode = 0 ↔ ∃ text, outcome = .printed text := by
  cases outcome <;> simp [Outcome.exitCode]

/-- Let three command lines ask, in an environment, for an upgrade up to a version, for an
upgrade of the input, and for the upgrade that the first one asks for, but without a bound.
Where the block state has no fractions in it, the first run succeeds exactly when the last one
does, and the second run on the output of the first ends and prints as the last one, whatever
the layout that the first one prints in.  A run that succeeds ends with zero, and it is one that
prints. -/
theorem upgrade_piped {s : Surroundings} {environment : String → Option String}
    {first second single : List String} {directory input : String} {limit : Version}
    {source : Option Version} {indented pretty : Bool}
    (hfirst : Request.read? environment first =
      some (.run ⟨⟨directory, some limit⟩, indented⟩ (.upgrade input source)))
    (hsecond : Request.read? environment second =
      some (.run ⟨⟨directory, none⟩, pretty⟩ (.upgrade "-" none)))
    (hsingle : Request.read? environment single =
      some (.run ⟨⟨directory, none⟩, pretty⟩ (.upgrade input source)))
    (hexact : ∀ tag, readTag s input = .ok tag → tag.isExact) :
    (run s environment first).exitCode = (run s environment single).exitCode ∧
    (pipe s environment first second).exitCode = (run s environment single).exitCode ∧
    (∀ text, pipe s environment first second = .printed text ↔
      run s environment single = .printed text) ∧
    ∀ outcome : Outcome, outcome.exitCode = 0 ↔ ∃ text, outcome = .printed text := by
  have hstages := upgrade_upTo s directory input limit source indented pretty hexact
  rw [pipe, run_upgrade hfirst, run_upgrade hsecond, run_upgrade hsingle]
  cases hstage : upgrade s ⟨⟨directory, some limit⟩, indented⟩ input source with
  | error failure =>
    -- the upgrade without a bound fails as well, and the second run has nothing to read
    have hwhole : upgrade s ⟨⟨directory, none⟩, pretty⟩ input source = .error failure := by
      rw [← hstages, hstage]
      rfl
    obtain ⟨failure', hnothing⟩ := upgrade_nothing s ⟨⟨directory, none⟩, pretty⟩
    refine ⟨?_, ?_, ?_, fun _ => exitCode_eq_zero_iff⟩ <;>
      simp [hwhole, hnothing, Outcome.output, Outcome.exitCode]
  | ok stage =>
    -- the second run finds the stage, and goes on to where the upgrade without a bound leads
    have hwhole : upgrade (s.withInput (printed indented stage)) ⟨⟨directory, none⟩, pretty⟩
        "-" none = upgrade s ⟨⟨directory, none⟩, pretty⟩ input source := by
      rw [← hstages, hstage]
      rfl
    have hok := isOk_upgrade_limit s directory input limit source indented pretty
    rw [hstage] at hok
    cases hlast : upgrade s ⟨⟨directory, none⟩, pretty⟩ input source with
    | error failure => simp [hlast, Except.isOk, Except.toBool] at hok
    | ok last =>
      refine ⟨?_, ?_, ?_, fun _ => exitCode_eq_zero_iff⟩ <;>
        simp [Outcome.output, Outcome.exitCode, hwhole, hlast]

/-- Two schemas in files and the text of a log. -/
def logSurroundings : Surroundings where
  text? := fun _ => none
  walk? := fun root => if root = "rules" then some [
      .file ⟨"rules/20.json", "20.json",
        some "[1,20,0,0,\x7b\x7d,\x7b\x7d,\x7b\"x:log\":\"x:fir_log\"\x7d]".toUTF8⟩,
      .file ⟨"rules/21.json", "21.json",
        some "[1,21,0,0,\x7b\x7d,\x7b\x7d,\x7b\"x:fir_log\":\"X:Pine_Log\"\x7d]".toUTF8⟩]
    else none
  input? := some "\x7b\"name\":\x7b\"string\":\"X:Log\"\x7d\x7d"

/-- A log that is printed on many lines between the two schemas. -/
theorem upgrade_of_log_piped :
    let s := logSurroundings
    let environment : String → Option String := fun _ => none
    let first := ["upgrade", "-", "--schemas", "rules", "--from", "1.19.0",
      "--max-version", "1.20.5", "--pretty"]
    let second := ["upgrade", "-", "--schemas", "rules"]
    let single := ["--schemas=rules", "upgrade", "--from", "1.19.0", "-"]
    ((run s environment first).exitCode = 0 ∧ ∃ text, run s environment first = .printed text) ∧
    (pipe s environment first second).exitCode = 0 ∧
    ∀ text, pipe s environment first second = .printed text ↔
      run s environment single = .printed text := by
  intro s environment first second single
  have hfirst : Request.read? environment first =
      some (.run ⟨⟨"rules", some ⟨1, 20, 5, 0⟩⟩, true⟩ (.upgrade "-" (some ⟨1, 19, 0, 0⟩))) := by
    decide +kernel
  have hsecond : Request.read? environment second =
      some (.run ⟨⟨"rules", none⟩, false⟩ (.upgrade "-" none)) := by
    decide +kernel
  have hsingle : Request.read? environment single =
      some (.run ⟨⟨"rules", none⟩, false⟩ (.upgrade "-" (some ⟨1, 19, 0, 0⟩))) := by
    decide +kernel
  -- the input has whole numbers only
  have hexact : ∀ tag, readTag s "-" = .ok tag → tag.isExact := by
    intro tag htag
    have hall : (readTag s "-").toOption.all Compound.isExact := by decide +kernel
    rw [htag] at hall
    exact hall
  have h := upgrade_piped hfirst hsecond hsingle hexact
  have hsucceeds : (run s environment single).exitCode = 0 := by decide +kernel
  have hfirstSucceeds := h.1.trans hsucceeds
  exact ⟨⟨hfirstSucceeds, (h.2.2.2 _).1 hfirstSucceeds⟩, h.2.1.trans hsucceeds, h.2.2.1⟩

end BlockData.CommandLine
