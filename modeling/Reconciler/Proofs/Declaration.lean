import Reconciler.Command.Arguments
import Reconciler.Proofs.Coordinate

/-! A function may be declared by flags or by its configuration, with the same result. The parts of
a list are trimmed in a configuration only; but classes and exchanges are always read without the
blanks around them. -/
namespace Reconciler.Command

def longWord (name value : String) : String := "--" ++ name ++ "=" ++ value

private theorem toList_longWord (name value : String) :
    (longWord name value).toList = '-' :: '-' :: (name.toList ++ '=' :: value.toList) := by
  simp only [longWord, String.toList_append, List.append_assoc]
  rfl

private theorem readOptions_longWord {name value : String} {option : OptionName} {g g' : Given}
    {words : List String} (hsep : '=' ∉ name.toList) (hname : OptionName.ofLong? name = some option)
    (hput : g.put option value = .ok g') :
    readOptions false g none (longWord name value :: words) = readOptions false g' none words := by
  have hne {word : String} (h : word.toList.length ≤ 2) : longWord name value ≠ word := by
    intro he
    have hlength := congrArg (List.length ∘ String.toList) he
    simp only [Function.comp_apply, toList_longWord, List.length_cons, List.length_append] at hlength
    omega
  have hlooks : looksLikeOption (longWord name value) = true := by
    rw [looksLikeOption, Bool.and_eq_true, bne_iff_ne, String.startsWith_string_iff, toList_longWord]
    exact ⟨⟨_, rfl⟩, hne (by decide)⟩
  have hlong : OptionWord.ofLong? name (some value) = some (.option option (some value)) := by
    simp [OptionWord.ofLong?, hname]
  have hword : OptionWord.ofChars? (longWord name value).toList =
      some (.option option (some value)) := by
    rw [toList_longWord]
    simp only [OptionWord.ofChars?, Text.cutFirst_append hsep, String.ofList_toList, hlong]
  have hdashes : (longWord name value != "--") = true := bne_iff_ne.2 (hne (by decide))
  rw [readOptions.eq_def]
  simp only [hlooks, hdashes, Bool.and_self, if_true, hword, Given.close, bind, Except.bind, hput]

private theorem splitValues_ne_nil (text : String) : splitValues text ≠ [] := by
  rw [splitValues, Text.cutEvery, List.map_cons]
  exact List.cons_ne_nil _ _

def Action.word : Action → String
  | .inspect => "inspect"
  | .run => "run"

private theorem parse_declared (environment : String → Option String) (action : Action)
    (governed owned watched : String) :
    Request.parse environment
        [action.word, longWord "for" governed, longWord "owns" owned, longWord "watch" watched] =
      .ok ⟨action, none, .human, ⟨some governed, splitValues owned, splitValues watched⟩⟩ := by
  have hoptions : readOptions false default none
      [longWord "for" governed, longWord "owns" owned, longWord "watch" watched] =
        .ok ((⟨none, some governed, splitValues owned, splitValues watched, none⟩, none), []) := by
    rw [readOptions_longWord (by decide) rfl rfl, readOptions_longWord (by decide) rfl rfl,
      readOptions_longWord (by decide) rfl rfl]
    rfl
  have hplain : looksLikeOption action.word = false := by
    cases action <;> decide +kernel
  have hcommand (words : List String) : readOptions true default none (action.word :: words) =
      .ok ((default, none), action.word :: words) := by
    rw [readOptions.eq_def]
    simp only [hplain, Bool.false_and, Bool.false_eq_true, if_false]
  have hoperands : readOperands 4 default
      [longWord "for" governed, longWord "owns" owned, longWord "watch" watched] =
        .ok ⟨none, some governed, splitValues owned, splitValues watched, none⟩ := by
    rw [readOperands, hoptions]
    rfl
  have hflags : Request.ofGiven environment action default
      ⟨none, some governed, splitValues owned, splitValues watched, none⟩ =
        ⟨action, none, .human, ⟨some governed, splitValues owned, splitValues watched⟩⟩ := by
    have hfirst (text : String) (before : List String) (fallback : Option String) :
        firstList (splitValues text) before fallback = splitValues text := by
      rw [firstList, if_pos (by simpa using splitValues_ne_nil text)]
    rw [Request.ofGiven]
    simp only [hfirst]
    rfl
  rw [Request.parse, hcommand]
  cases action
  all_goals
    change (readOperands 4 default _ >>= fun after => _) = _
    rw [hoperands]
    exact congrArg Except.ok hflags

end Reconciler.Command

namespace Reconciler.Declaration

open Text (trim AllBlank)

variable {spec : String}

section Blanks

private theorem readCoordinate_trim (key : String) :
    readCoordinate (trim key) = readCoordinate key := by
  rw [readCoordinate, Coordinate.parse_trim, readCoordinate]

private def readParts (key exchange : String) : Except Failure (Coordinate × Exchange) := do
  let exchange ← (Exchange.parse exchange).mapError fun word => ⟨Exchange.unknownMessage word, []⟩
  return (← readCoordinate key, exchange)

private theorem readParts_trim (key exchange : String) :
    readParts (trim key) (trim exchange) = readParts key exchange := by
  rw [readParts, readParts, Exchange.parse, Exchange.parse, Text.trim_trim, readCoordinate_trim]

private theorem readOwned_of_cutFirst {key exchange : List Char}
    (h : Text.cutFirst '=' spec.toList = some (key, exchange)) :
    readOwned spec = readParts (String.ofList key) (String.ofList exchange) := by
  rw [readOwned, h]
  rfl

private theorem readOwned_of_cutFirst_eq_none (h : Text.cutFirst '=' spec.toList = none) :
    readOwned spec = readParts spec Exchange.conditionAndResource.text := by
  rw [readOwned, h]
  rfl

private theorem readOwned_trim (spec : String) : readOwned (trim spec) = readOwned spec := by
  obtain ⟨l, r, hspec, hl, hr⟩ := Text.exists_append_trimBlanks spec.toList
  rw [← Text.toList_trim] at hspec
  have hlsep : '=' ∉ l := Text.notMem_of_allBlank hl (by decide)
  have hrsep : '=' ∉ r := Text.notMem_of_allBlank hr (by decide)
  cases hcut : Text.cutFirst '=' (trim spec).toList with
  | none =>
    have hnone : Text.cutFirst '=' spec.toList = none := by
      rw [Text.cutFirst_eq_none] at hcut ⊢
      rw [hspec]
      simp [hlsep, hcut, hrsep]
    rw [readOwned_of_cutFirst_eq_none hcut, readOwned_of_cutFirst_eq_none hnone, ← readParts_trim,
      Text.trim_trim, readParts_trim]
  | some parts =>
    -- the blanks end up around the coordinate and around the exchange, which are trimmed too
    obtain ⟨key, exchange⟩ := parts
    obtain ⟨htrim, hkey⟩ := Text.cutFirst_eq_some hcut
    have houter : Text.cutFirst '=' spec.toList = some (l ++ key, exchange ++ r) := by
      have happend : spec.toList = (l ++ key) ++ '=' :: (exchange ++ r) := by
        rw [hspec, htrim]
        simp
      rw [happend]
      exact Text.cutFirst_append (by simp [hlsep, hkey]) (exchange ++ r)
    have hleft : trim (String.ofList (l ++ key)) = trim (String.ofList key) := by
      rw [trim, trim, String.toList_ofList, String.toList_ofList, Text.trimBlanks_append_left hl]
    have hright : trim (String.ofList (exchange ++ r)) = trim (String.ofList exchange) := by
      rw [trim, trim, String.toList_ofList, String.toList_ofList, Text.trimBlanks_append_right _ hr]
    rw [readOwned_of_cutFirst hcut, readOwned_of_cutFirst houter, ← readParts_trim, ← hleft,
      ← hright, readParts_trim]

private theorem mapM_trim {α : Type} {read : String → Except Failure α}
    (hread : ∀ part, read (trim part) = read part) (parts : List String) :
    (parts.map trim).mapM read = parts.mapM read := by
  induction parts with
  | nil => rfl
  | cons part parts ih => rw [List.map_cons, List.mapM_cons, List.mapM_cons, hread, ih]

private theorem splitList_eq {text : String}
    (h : ∀ part ∈ Command.splitValues text, ∃ c ∈ part.toList, Text.isBlank c = false) :
    splitList text = (Command.splitValues text).map trim := by
  have hparts : ((Text.cutEvery ',' text.toList).map fun part =>
      String.ofList (Text.trimBlanks part)) = (Command.splitValues text).map trim := by
    rw [Command.splitValues, List.map_map]
    apply List.map_congr_left
    intro part _
    rw [Function.comp_apply, trim, String.toList_ofList]
  rw [splitList, hparts, List.filter_eq_self]
  intro trimmed hmem
  obtain ⟨part, hpart, rfl⟩ := List.mem_map.1 hmem
  obtain ⟨c, hc, hmark⟩ := h part hpart
  have hne : ¬ AllBlank part.toList := fun hall => Text.notMem_of_allBlank hall hmark hc
  rw [← Text.trimBlanks_eq_nil_iff, ← Text.toList_trim] at hne
  simpa using hne

end Blanks

section Sources

variable {config config' : Option Resource} {values : List String} {key : String}

private theorem valuesOr_of_ne_nil (h : values ≠ []) (config : Option Resource) (key : String) :
    valuesOr values config key = values := by
  rw [valuesOr, if_neg (by simpa using h)]

private theorem valuesOr_congr
    (h : values = [] → configured? config key = configured? config' key) :
    valuesOr values config key = valuesOr values config' key := by
  by_cases hv : values = []
  · rw [valuesOr, valuesOr, h hv]
  · rw [valuesOr_of_ne_nil hv, valuesOr_of_ne_nil hv]

private theorem mapM_configured {α : Type} {read : String → Except Failure α} {text : String}
    (hread : ∀ part, read (trim part) = read part) (hc : configured? config key = some text)
    (h : ∀ part ∈ Command.splitValues text, ∃ c ∈ part.toList, Text.isBlank c = false) :
    (valuesOr [] config key).mapM read =
      (valuesOr (Command.splitValues text) none key).mapM read := by
  rw [valuesOr_of_ne_nil (Command.splitValues_ne_nil text), valuesOr, if_pos List.isEmpty_nil, hc,
    Option.map_some, Option.getD_some, splitList_eq h, mapM_trim hread]

end Sources

/-- A configuration declares the same as the flags that say what it says, or fails with the same
messages, as long as no part of its lists is blank. -/
theorem configured_as_flagged :
    (∀ (config : Resource) (governed owned watched : String),
      config.string? ["data", "for"] = some governed →
      config.string? ["data", "owns"] = some owned →
      config.string? ["data", "watch"] = some watched →
      (∀ part ∈ Command.splitValues owned, ∃ c ∈ part.toList, Text.isBlank c = false) →
      (∀ part ∈ Command.splitValues watched, ∃ c ∈ part.toList, Text.isBlank c = false) →
      ofFlags ⟨none, [], []⟩ (some config) =
        ofFlags ⟨some governed, Command.splitValues owned, Command.splitValues watched⟩ none) ∧
    (∀ (flags : Flags) (config config' : Option Resource),
      (flags.governed = none → configured? config "for" = configured? config' "for") →
      (flags.owned = [] → configured? config "owns" = configured? config' "owns") →
      (flags.watched = [] → configured? config "watch" = configured? config' "watch") →
      ofFlags flags config = ofFlags flags config') ∧
    ∀ (environment : String → Option String) (action : Command.Action)
      (governed owned watched : String),
      Command.Request.parse environment [action.word, Command.longWord "for" governed,
          Command.longWord "owns" owned, Command.longWord "watch" watched] =
        .ok ⟨action, none, .human,
          ⟨some governed, Command.splitValues owned, Command.splitValues watched⟩⟩ := by
  refine ⟨?configured, ?flagged, Command.parse_declared⟩
  case configured =>
    intro config governed owned watched hfor howns hwatch hownedParts hwatchedParts
    have hgoverned : configured? (some config) "for" = some governed := hfor
    have hlists : configured? (some config) "owns" = some owned ∧
        configured? (some config) "watch" = some watched := ⟨howns, hwatch⟩
    have howned := mapM_configured readOwned_trim hlists.1 hownedParts
    have hwatched := mapM_configured readCoordinate_trim hlists.2 hwatchedParts
    rw [ofFlags, ofFlags]
    simp only [hgoverned, howned, hwatched]
    rfl
  case flagged =>
    intro flags config config' hfor howns hwatch
    have hgoverned : (flags.governed <|> configured? config "for") =
        (flags.governed <|> configured? config' "for") := by
      cases hf : flags.governed with
      | some key => rfl
      | none => rw [hfor hf]
    rw [ofFlags, ofFlags, hgoverned, valuesOr_congr howns, valuesOr_congr hwatch]

private theorem marked_of_all {parts : List String}
    (h : (parts.all fun part => part.toList.any fun c => !Text.isBlank c) = true) :
    ∀ part ∈ parts, ∃ c ∈ part.toList, Text.isBlank c = false := by
  simpa only [List.all_eq_true, List.any_eq_true, Bool.not_eq_true'] using h

def spacedConfig : Resource :=
  ⟨.object [("data", .object [("for", .string " v1/Pod\n"),
    ("owns", .string "ipam/v1/IPAllocation = Full , v1/Secret"), ("watch", .string " *,v1/Node ")])]⟩

/-- Blanks around the parts of a list, and inside them, are harmless in the configuration as well as
in the flags. -/
theorem configured_as_flagged_spaced :
    (∀ part ∈ Command.splitValues "ipam/v1/IPAllocation = Full , v1/Secret",
      ∃ c ∈ part.toList, Text.isBlank c = false) ∧
    ofFlags ⟨none, [], []⟩ (some spacedConfig) =
      ofFlags ⟨some " v1/Pod\n", ["ipam/v1/IPAllocation = Full ", " v1/Secret"],
        [" *", "v1/Node "]⟩ none ∧
    ofFlags ⟨some "v1/Service", [], []⟩ (some spacedConfig) =
      .ok ⟨⟨"v1", "Service"⟩, [(⟨"ipam/v1", "IPAllocation"⟩, .conditionAndResource),
        (⟨"v1", "Secret"⟩, .conditionAndResource)], [.wildcard, ⟨"v1", "Node"⟩]⟩ := by
  have howned : ∀ part ∈ Command.splitValues "ipam/v1/IPAllocation = Full , v1/Secret",
      ∃ c ∈ part.toList, Text.isBlank c = false := marked_of_all (by decide +kernel)
  have hwatched : ∀ part ∈ Command.splitValues " *,v1/Node ",
      ∃ c ∈ part.toList, Text.isBlank c = false := marked_of_all (by decide +kernel)
  refine ⟨howned, ?_, by decide +kernel⟩
  exact configured_as_flagged.1 spacedConfig " v1/Pod\n" "ipam/v1/IPAllocation = Full , v1/Secret"
    " *,v1/Node " (by decide +kernel) (by decide +kernel) (by decide +kernel) howned hwatched

end Reconciler.Declaration
