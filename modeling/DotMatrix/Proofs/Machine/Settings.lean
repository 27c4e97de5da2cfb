import DotMatrix.Proofs.Machine.PowerCycle
import DotMatrix.Proofs.Machine.Resume
import DotMatrix.Proofs.Text.Numerals
import DotMatrix.Proofs.Text.Words

/-!
# Settings from the environment

Each setting is read from its own variable: a number from one to four with blanks around it, or one
of eight words, whose capitals do not matter either. Anything else leaves the default. So the
environment can make the display four times as fast and no faster, and since no step takes more than
six cycles, no step of a machine that is set up so comes anywhere near the time of a frame.

Results:
1. `Config.dotsPerCycle_eq_iff`, `Config.switch_eq_iff`: what a variable sets.
2. `Ppu.tick_eq_tickDrawn`: a tick of less than three frames skips none.
3. `environment_settings`: both, and what it means for every step.
-/

namespace DotMatrix

open Memory Text

namespace Config

variable {lookup : String → Option String}

/-! ## What is asked for -/

/-- The environment asks for so many dots in a cycle: the variable holds a numeral between blanks,
and its number is one to four. -/
structure AsksDots (lookup : String → Option String) (dots : ℕ) : Prop where
  pos : 1 ≤ dots
  le : dots ≤ 4
  numeral : ∃ text word, lookup dotsVariable = some text ∧ Strips text word ∧
    Numeral.Denotes word dots

/-- The dots in a cycle that the environment sets. -/
inductive SetsDots (lookup : String → Option String) : ℕ → Prop
  | asked {dots : ℕ} (asks : AsksDots lookup dots) : SetsDots lookup dots
  | default (nothing : ∀ dots, ¬ AsksDots lookup dots) : SetsDots lookup 1

/-- A variable holds one of some words between blanks, in capitals or small letters. -/
def Holds (lookup : String → Option String) (name : String) (words : List String) : Prop :=
  ∃ text word, lookup name = some text ∧ Strips text word ∧ ∃ wanted ∈ words, SameWord word wanted

/-- The words that turn a switch on. -/
def onWords : List String := ["1", "true", "yes", "on"]

/-- The words that turn a switch off. -/
def offWords : List String := ["0", "false", "no", "off"]

/-- How the variable of a switch sets it. -/
inductive SetsSwitch (lookup : String → Option String) (name : String) : Bool → Prop
  | on (holds : Holds lookup name onWords) : SetsSwitch lookup name true
  | off (holds : Holds lookup name offWords) : SetsSwitch lookup name false
  | default (notOn : ¬ Holds lookup name onWords) (notOff : ¬ Holds lookup name offWords) :
      SetsSwitch lookup name false

/-! ## Dots -/

theorem parseDots?_eq_some_iff {text : String} {dots : ℕ} :
    parseDots? text = some dots ↔ (1 ≤ dots ∧ dots ≤ 4) ∧ Numeral.Denotes (trim text) dots := by
  unfold parseDots?
  constructor
  · intro asked
    split at asked
    case h_1 number read =>
      obtain ⟨within, same⟩ := Option.ite_none_right_eq_some.1 asked
      obtain rfl := Option.some.inj same
      exact ⟨within, (Numeral.parse_iff.1 read).1⟩
    case h_2 => cases asked
  · rintro ⟨within, denotes⟩
    have small : dots ≤ UInt32.size - 1 := within.2.trans (by decide)
    rw [Numeral.parse_iff.2 ⟨denotes, small⟩]
    exact if_pos within

theorem asksDots_iff {dots : ℕ} :
    AsksDots lookup dots ↔ (lookup dotsVariable).bind parseDots? = some dots := by
  simp only [Option.bind_eq_some_iff, parseDots?_eq_some_iff]
  constructor
  · rintro ⟨pos, le, text, word, found, strips, denotes⟩
    rw [← strips_iff.1 strips] at denotes
    exact ⟨text, found, ⟨pos, le⟩, denotes⟩
  · rintro ⟨text, found, ⟨pos, le⟩, denotes⟩
    exact ⟨pos, le, text, trim text, found, strips_trim text, denotes⟩

theorem dotsPerCycle_eq_iff {dots : ℕ} :
    (ofEnvironment lookup).dotsPerCycle = dots ↔ SetsDots lookup dots := by
  change ((lookup dotsVariable).bind parseDots?).getD 1 = dots ↔ _
  cases asked : (lookup dotsVariable).bind parseDots? with
  | none =>
    have nothing (dots : ℕ) : ¬ AsksDots lookup dots := by
      rw [asksDots_iff, asked]
      exact nofun
    rw [Option.getD_none]
    constructor
    · rintro rfl
      exact .default nothing
    · rintro (asks | -)
      · exact absurd asks (nothing dots)
      · rfl
  | some number =>
    have asks : AsksDots lookup number := asksDots_iff.2 asked
    rw [Option.getD_some]
    constructor
    · rintro rfl
      exact .asked asks
    · rintro (other | nothing)
      · exact Option.some.inj (asked.symm.trans (asksDots_iff.1 other))
      · exact absurd asks (nothing number)

theorem dotsPerCycle_bounds (lookup : String → Option String) :
    1 ≤ (ofEnvironment lookup).dotsPerCycle ∧ (ofEnvironment lookup).dotsPerCycle ≤ 4 := by
  obtain ⟨dots, set⟩ : ∃ dots, (ofEnvironment lookup).dotsPerCycle = dots := ⟨_, rfl⟩
  rw [set]
  cases dotsPerCycle_eq_iff.1 set with
  | asked asks => exact ⟨asks.pos, asks.le⟩
  | default => decide

/-! ## Switches -/

theorem holds_iff {name : String} (words : List String)
    (small : ∀ word ∈ words, word.toList.map Char.toLower = word.toList) :
    Holds lookup name words ↔
      ∃ text, lookup name = some text ∧ (trim text).toLower ∈ words := by
  have lower (word : String) (member : word ∈ words) : word.toLower = word := by
    rw [← String.toList_inj, toList_toLower, small word member]
  constructor
  · rintro ⟨text, word, found, strips, wanted, member, same⟩
    rw [← strips_iff.1 strips, sameWord_iff, lower wanted member] at same
    exact ⟨text, found, same ▸ member⟩
  · rintro ⟨text, found, member⟩
    refine ⟨text, trim text, found, strips_trim text, _, member, sameWord_iff.2 ?_⟩
    exact (lower _ member).symm

theorem parseSwitch?_eq_true_iff {text : String} :
    parseSwitch? text = some true ↔ (trim text).toLower ∈ onWords := by
  unfold parseSwitch? onWords
  dsimp only
  split
  case isTrue on => exact iff_of_true rfl on
  case isFalse notOn =>
    refine iff_of_false ?_ notOn
    split <;> simp

theorem parseSwitch?_eq_false_iff {text : String} :
    parseSwitch? text = some false ↔ (trim text).toLower ∈ offWords := by
  have apart : ∀ word ∈ onWords, word ∉ offWords := by decide
  unfold parseSwitch?
  dsimp only
  split
  case isTrue on => exact iff_of_false (by simp) (apart _ on)
  case isFalse =>
    split
    case isTrue off => exact iff_of_true rfl off
    case isFalse notOff => exact iff_of_false nofun notOff

/-- A switch is what its variable says, or else off. -/
theorem switch_eq_iff {name : String} {on : Bool} :
    ((lookup name).bind parseSwitch?).getD false = on ↔ SetsSwitch lookup name on := by
  have turnsOn : Holds lookup name onWords ↔ (lookup name).bind parseSwitch? = some true := by
    simp only [holds_iff onWords (by decide), Option.bind_eq_some_iff, parseSwitch?_eq_true_iff]
  have turnsOff : Holds lookup name offWords ↔ (lookup name).bind parseSwitch? = some false := by
    simp only [holds_iff offWords (by decide), Option.bind_eq_some_iff, parseSwitch?_eq_false_iff]
  cases said : (lookup name).bind parseSwitch? with
  | none =>
    rw [said] at turnsOn turnsOff
    constructor
    · rintro rfl
      exact .default (mt turnsOn.1 nofun) (mt turnsOff.1 nofun)
    · rintro (holds | - | -)
      · cases turnsOn.1 holds
      · rfl
      · rfl
  | some state =>
    rw [said] at turnsOn turnsOff
    cases state with
    | true =>
      constructor
      · rintro rfl
        exact .on (turnsOn.2 rfl)
      · rintro (- | holds | ⟨notOn, -⟩)
        · rfl
        · cases turnsOff.1 holds
        · exact absurd (turnsOn.2 rfl) notOn
    | false =>
      constructor
      · rintro rfl
        exact .off (turnsOff.2 rfl)
      · rintro (holds | - | -)
        · cases turnsOn.1 holds
        · rfl
        · rfl

end Config

/-! ## The display -/

namespace Ppu

/-- Lets dots pass and draws whatever they bring. -/
def tickDrawn (ppu : Ppu) (dots : ℕ) : Transaction (Bool × Ppu) := do
  let after ← ppu.toRaster.elapse (ppu.dots + dots)
  return (ppu.frames < after.frames, after)

theorem tick_eq_tickDrawn {dots : ℕ} (few : dots < 3 * frameDots) (ppu : Ppu) :
    ppu.tick dots = ppu.tickDrawn dots := by
  have none : dots / frameDots - 2 = 0 := by
    rw [frameDots_eq] at few ⊢
    omega
  rw [tick, tickDrawn]
  simp only [none, Nat.add_zero, Nat.zero_mul, Nat.sub_zero]

end Ppu

/-! ## Machines that are set up by the environment -/

namespace Machine

theorem configured_replay (config : Config) (actions : List Action) :
    (replay actions (.initial config)).board.Configured config := by
  have new : (Machine.initial config).board.Configured config := ⟨rfl, rfl, rfl⟩
  have kept (action : Action) (_member : action ∈ actions) (machine : Machine)
      (configured : machine.board.Configured config) :
      (machine.act action).board.Configured config := configured_act configured action
  exact invariant_replay kept new

end Machine

/-- What the environment sets: the dots in a cycle by the numeral in one variable, the two switches
by the words in two others, and each setting by its own variable alone. So whatever is done to a
machine with such settings, each step gives the display the dots of its cycles, at most 24: they are
never cut to what fits in 32 bits, no frame is skipped, and no step completes more than one. -/
theorem environment_settings (lookup : String → Option String) :
    let config := Config.ofEnvironment lookup
    (∀ dots, config.dotsPerCycle = dots ↔ Config.SetsDots lookup dots) ∧
    (∀ on, config.serialEcho = on ↔ Config.SetsSwitch lookup Config.echoVariable on) ∧
    (∀ on, config.enforceHalt = on ↔ Config.SetsSwitch lookup Config.haltVariable on) ∧
    (∀ other : String → Option String,
      (other Config.dotsVariable = lookup Config.dotsVariable →
        (Config.ofEnvironment other).dotsPerCycle = config.dotsPerCycle) ∧
      (other Config.echoVariable = lookup Config.echoVariable →
        (Config.ofEnvironment other).serialEcho = config.serialEcho) ∧
      (other Config.haltVariable = lookup Config.haltVariable →
        (Config.ofEnvironment other).enforceHalt = config.enforceHalt)) ∧
    ∀ actions : List Machine.Action,
      let machine := Machine.replay actions (Machine.initial config)
      let dots := machine.step.1 * config.dotsPerCycle
      dots ≤ 24 ∧ Board.dots machine.board.config machine.step.1 = dots ∧
        machine.board.ppu.tick dots = machine.board.ppu.tickDrawn dots ∧
        machine.step.2.board.ppu.clock = machine.board.ppu.clock + dots ∧
        machine.step.2.board.ppu.frames ≤ machine.board.ppu.frames + 1 := by
  intro config
  refine ⟨fun dots => Config.dotsPerCycle_eq_iff, fun on => Config.switch_eq_iff,
    fun on => Config.switch_eq_iff, fun other => ⟨?_, ?_, ?_⟩, fun actions => ?_⟩
  · intro same
    simp only [config, Config.ofEnvironment, same]
  · intro same
    simp only [config, Config.ofEnvironment, same]
  · intro same
    simp only [config, Config.ofEnvironment, same]
  · intro machine dots
    have set : machine.board.config = config := (Machine.configured_replay config actions).settings
    have slow : config.dotsPerCycle ≤ 4 := (Config.dotsPerCycle_bounds lookup).2
    have few : dots ≤ 24 := Nat.mul_le_mul machine.cost_step_le slow
    have whole : Board.dots machine.board.config machine.step.1 = dots := by
      rw [Board.dots, set]
      exact Nat.min_eq_left (few.trans (by decide))
    have sixfold : 6 * machine.board.config.dotsPerCycle ≤ frameDots := by
      rw [set]
      exact (Nat.mul_le_mul_left 6 slow).trans (by decide)
    refine ⟨few, whole, Ppu.tick_eq_tickDrawn (few.trans_lt (by decide)) _, ?_,
      Machine.frames_step_le sixfold⟩
    rw [Machine.clock_step, whole]

/-- Four dots in a cycle between blanks that are no ASCII, and a switch in mixed letters. -/
theorem environment_settings_mixed :
    let lookup (name : String) : Option String :=
      if name = Config.dotsVariable then some "\u2003+04 "
      else if name = Config.echoVariable then some "\tYeS\n"
      else none
    let config := Config.ofEnvironment lookup
    config.dotsPerCycle = 4 ∧ config.serialEcho = true ∧ config.enforceHalt = false ∧
      (Config.ofEnvironment fun name => if name = Config.dotsVariable then some "5" else
        lookup name).serialEcho = true := by
  intro lookup config
  have four : lookup Config.dotsVariable = some "\u2003+04 " := if_pos rfl
  have yes : lookup Config.echoVariable = some "\tYeS\n" := (if_neg (by decide)).trans (if_pos rfl)
  have nothing : lookup Config.haltVariable = none :=
    (if_neg (by decide)).trans (if_neg (by decide))
  have asks : Config.AsksDots lookup 4 := by
    have strips : Strips "\u2003+04 " "+04" :=
      ⟨⟨['\u2003'], [' '], rfl, List.all_eq_true.1 rfl, List.all_eq_true.1 rfl⟩,
        by rintro _ ⟨⟩; decide, by rintro _ ⟨⟩; decide⟩
    have denotes : Numeral.Denotes "+04" (Numeral.value ['0', '4']) :=
      .intro (List.cons_ne_nil _ _) (List.all_eq_true.1 rfl) (.inr rfl)
    exact ⟨by decide, by decide, _, _, four, strips, denotes⟩
  have on : Config.Holds lookup Config.echoVariable Config.onWords := by
    have strips : Strips "\tYeS\n" "YeS" :=
      ⟨⟨['\t'], ['\n'], rfl, List.all_eq_true.1 rfl, List.all_eq_true.1 rfl⟩,
        by rintro _ ⟨⟩; decide, by rintro _ ⟨⟩; decide⟩
    have word : SameWord "YeS" "yes" :=
      .cons (.capital rfl rfl) (.cons (.same 'e') (.cons (.capital rfl rfl) .nil))
    exact ⟨_, _, yes, strips, "yes", by decide, word⟩
  have absent (words : List String) : ¬ Config.Holds lookup Config.haltVariable words := by
    rintro ⟨text, word, found, -⟩
    cases nothing.symm.trans found
  obtain ⟨dots, echo, halt, alone, -⟩ := environment_settings lookup
  have echoes : config.serialEcho = true := (echo true).2 (.on on)
  refine ⟨(dots 4).2 (.asked asks), echoes, (halt false).2 (.default (absent _) (absent _)), ?_⟩
  exact ((alone _).2.1 (if_neg (by decide))).trans echoes

end DotMatrix
