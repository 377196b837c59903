import Mathlib.Data.List.Nodup
import XlmNs.Ingestion.Backend
import XlmNs.Toml.Grammar

/-!
# `Ingestion.Correctness.Config` — what the core reads in its configuration

`rendered_toml` escapes quotes and backslashes. `renderedToml_read`: read as TOML, the text has exactly the settings it was
made from, if no text among them has a control character other than a tab; if one has, then it is no TOML document.
-/

namespace XlmNs.Ingestion

open Soroban
open Toml (Plain Setting quoted stringLine linesOf)

variable {config : CoreConfig}

/-! ## Escaping -/

/-- The two replacements do not get in each other's way. -/
theorem escapeToml_eq (value : String) : escapeToml value = quoted value.toList := by
  unfold escapeToml
  induction value.toList with
  | nil => rfl
  | cons c s ih =>
      have hinner : replaceChar '\\' ['\\', '\\'] (c :: s)
          = (if c = '\\' then ['\\', '\\'] else [c]) ++ replaceChar '\\' ['\\', '\\'] s := List.flatMap_cons
      have houter : ∀ t u, replaceChar '"' ['\\', '"'] (t ++ u) = replaceChar '"' ['\\', '"'] t ++ replaceChar '"' ['\\', '"'] u :=
        fun _ _ => List.flatMap_append
      rw [hinner, houter, ih, Toml.quoted_cons]
      congr 1
      by_cases hbackslash : c = '\\'
      · subst hbackslash
        rfl
      · by_cases hquote : c = '"'
        · subst hquote
          rfl
        · have hneither : ¬ (c = '"' ∨ c = '\\') := not_or.mpr ⟨hquote, hbackslash⟩
          rw [if_neg hbackslash, if_neg hneither, replaceChar, List.flatMap_singleton, if_neg hquote]

/-! ## The settings -/

/-- The name of the table of an archive. -/
def archiveName (idx : Nat) : List Char := "archive_".toList ++ Nat.toDigits 10 idx

/-- The setting about an archive. -/
def archiveSetting (entry : String × Nat) : Setting :=
  ((["HISTORY".toList, archiveName entry.2], "get".toList), .string entry.1.toList)

/-- What the core is told that is the same for every configuration. -/
def fixedSettings : List Setting :=
  [(([], "NODE_IS_VALIDATOR".toList), .boolean false), (([], "RUN_STANDALONE".toList), .boolean false),
    (([], "UNSAFE_QUORUM".toList), .boolean true), (([], "FAILURE_SAFETY".toList), .integer 0),
    (([], "HTTP_PORT".toList), .integer 0), (([], "PUBLIC_HTTP_PORT".toList), .boolean false)]

/-- What the configuration tells the core. -/
def CoreConfig.settings (config : CoreConfig) : List Setting :=
  fixedSettings
    ++ [(([], "NETWORK_PASSPHRASE".toList), .string config.networkPassphrase.toList),
        (([], "BUCKET_DIR_PATH".toList), .string (joinPath config.workingDir "buckets").toList)]
    ++ config.historyArchiveUrls.zipIdx.map archiveSetting

/-- No text has a control character, tabs apart. -/
def CoreConfig.Clean (config : CoreConfig) : Prop :=
  Plain config.networkPassphrase.toList ∧ Plain config.workingDir.toList ∧ ∀ url ∈ config.historyArchiveUrls, Plain url.toList

instance : Decidable config.Clean := inferInstanceAs (Decidable (_ ∧ _))

theorem plain_joinPath {path name : String} (hname : Plain name.toList) :
    Plain (joinPath path name).toList ↔ Plain path.toList := by
  have hslash : Plain "/".toList := by decide +kernel
  unfold joinPath
  split
  · rw [String.toList_append, Toml.plain_append]
    exact and_iff_left hname
  · rw [String.toList_append, String.toList_append, Toml.plain_append, Toml.plain_append]
    exact (and_iff_left hname).trans (and_iff_left hslash)

/-! ## The text, line by line -/

/-- The lines that do not depend on the configuration. -/
def fixedTexts : List Toml.Text :=
  ["NODE_IS_VALIDATOR=false".toList, "RUN_STANDALONE=false".toList, "UNSAFE_QUORUM=true".toList, "FAILURE_SAFETY=0".toList,
    "HTTP_PORT=0".toList, "PUBLIC_HTTP_PORT=false".toList]

/-- The line that opens the table of an archive. -/
def tableText (idx : Nat) : Toml.Text := "[HISTORY.".toList ++ (archiveName idx ++ [']'])

/-- The lines about an archive. -/
def archiveTexts (entry : String × Nat) : List Toml.Text :=
  [[], tableText entry.2, stringLine "get".toList entry.1.toList]

/-- The lines of the configuration file. -/
def CoreConfig.texts (config : CoreConfig) : List Toml.Text :=
  fixedTexts
    ++ ([stringLine "NETWORK_PASSPHRASE".toList config.networkPassphrase.toList]
      ++ ([stringLine "BUCKET_DIR_PATH".toList (joinPath config.workingDir "buckets").toList]
        ++ config.historyArchiveUrls.zipIdx.flatMap archiveTexts))

theorem archiveToml_eq (url : String) (idx : Nat) :
    archiveToml idx url = (archiveTexts (url, idx)).flatMap (· ++ ['\n']) := by
  have hopen : "\n[HISTORY.archive_".toList = '\n' :: ("[HISTORY.".toList ++ "archive_".toList) := by decide +kernel
  have hbetween : "]\nget=\"".toList = [']', '\n'] ++ ("get".toList ++ ['=', '"']) := by decide +kernel
  have hend : "\"\n".toList = ['"', '\n'] := by decide +kernel
  unfold archiveToml archiveTexts tableText archiveName stringLine
  rw [escapeToml_eq, hopen, hbetween, hend]
  simp only [List.flatMap_cons, List.flatMap_nil, List.append_assoc, List.cons_append, List.nil_append, List.append_nil]

theorem renderedToml_eq : config.renderedToml = config.texts.flatMap (· ++ ['\n']) := by
  have harchives : config.historyArchiveUrls.zipIdx.flatMap (fun entry => archiveToml entry.2 entry.1)
      = (config.historyArchiveUrls.zipIdx.flatMap archiveTexts).flatMap (· ++ ['\n']) := by
    rw [List.flatMap_assoc]
    exact List.flatMap_congr fun entry _ => archiveToml_eq entry.1 entry.2
  have hfixed : "NODE_IS_VALIDATOR=false\nRUN_STANDALONE=false\nUNSAFE_QUORUM=true\nFAILURE_SAFETY=0\nHTTP_PORT=0\n".toList
      ++ "PUBLIC_HTTP_PORT=false\nNETWORK_PASSPHRASE=\"".toList
      = fixedTexts.flatMap (· ++ ['\n']) ++ ("NETWORK_PASSPHRASE".toList ++ ['=', '"']) := by decide +kernel
  have hbetween : "\"\nBUCKET_DIR_PATH=\"".toList = ['"', '\n'] ++ ("BUCKET_DIR_PATH".toList ++ ['=', '"']) := by
    decide +kernel
  have hend : "\"\n".toList = ['"', '\n'] := by decide +kernel
  unfold CoreConfig.renderedToml CoreConfig.texts
  rw [harchives, escapeToml_eq, escapeToml_eq, hfixed, hbetween, hend, List.flatMap_append, List.flatMap_append,
    List.flatMap_append, List.flatMap_singleton, List.flatMap_singleton]
  simp only [stringLine, List.append_assoc, List.cons_append, List.nil_append]

/-! ## Reading it -/

/-- What they hold. -/
def archiveLines (entry : String × Nat) : List Toml.Line :=
  [.blank, .table ["HISTORY".toList, archiveName entry.2], .pair "get".toList (.string entry.1.toList)]

/-- What the lines hold that do not depend on the configuration. -/
def fixedLines : List Toml.Line := fixedSettings.map (fun s => .pair s.1.2 s.2)

theorem linesOf_fixed : linesOf fixedTexts = some fixedLines := by decide +kernel

theorem archiveName_bare (idx : Nat) : Toml.IsBareKey (archiveName idx) := by
  have hprefix : "archive_".toList.all Toml.isBareKeyChar = true := by decide +kernel
  refine ⟨nofun, ?_⟩
  rw [List.all_eq_true]
  intro c hc
  rcases List.mem_append.mp hc with h | h
  · exact List.all_eq_true.mp hprefix c h
  · have hdigit : c.isDigit = true := Nat.isDigit_of_mem_toDigits (by decide) (by decide) h
    rw [Toml.isBareKeyChar, Char.isAlphanum, hdigit, Bool.or_true, Bool.true_or, Bool.true_or]

theorem linesOf_table (idx : Nat) : linesOf [tableText idx] = some [.table ["HISTORY".toList, archiveName idx]] := by
  have htext : tableText idx = '[' :: ("HISTORY".toList ++ '.' :: (archiveName idx ++ [']'])) := rfl
  have hnewline : '\n' ∉ tableText idx := by
    rw [htext]
    simp only [List.mem_cons, List.mem_append, not_or]
    exact ⟨by decide, by decide, by decide, (archiveName_bare idx).not_mem (by decide), by decide, nofun⟩
  rw [linesOf, List.flatMap_singleton, List.splitOn_eq_singleton hnewline, htext, List.mapM_cons,
    Toml.line_table (by decide +kernel) (archiveName_bare idx)]
  rfl

/-- The lines about some archives. -/
theorem linesOf_archives (entries : List (String × Nat)) :
    linesOf (entries.flatMap archiveTexts) =
      if ∀ entry ∈ entries, Plain entry.1.toList then some (entries.flatMap archiveLines) else none := by
  induction entries with
  | nil => exact (if_pos nofun).symm
  | cons entry entries ih =>
      have hblank : linesOf [[]] = some [.blank] := rfl
      have hone : linesOf (archiveTexts entry) = if Plain entry.1.toList then some (archiveLines entry) else none := by
        have hsplit : archiveTexts entry = [[]] ++ ([tableText entry.2] ++ [stringLine "get".toList entry.1.toList]) := rfl
        rw [hsplit, Toml.linesOf_append, Toml.linesOf_append, hblank, linesOf_table, Toml.linesOf_stringLine (by decide +kernel)]
        split <;> rfl
      have hcons : (∀ e ∈ entry :: entries, Plain e.1.toList) ↔ Plain entry.1.toList ∧ ∀ e ∈ entries, Plain e.1.toList :=
        List.forall_mem_cons
      rw [List.flatMap_cons, Toml.linesOf_append, hone, ih]
      by_cases hentry : Plain entry.1.toList
      · by_cases hrest : ∀ e ∈ entries, Plain e.1.toList
        · rw [if_pos hentry, if_pos hrest, if_pos (hcons.mpr ⟨hentry, hrest⟩), List.flatMap_cons]
          rfl
        · rw [if_pos hentry, if_neg hrest, if_neg (fun h => hrest (hcons.mp h).2)]
          rfl
      · rw [if_neg hentry, if_neg (fun h => hentry (hcons.mp h).1)]
        rfl

/-- What the lines of the configuration file hold. -/
def CoreConfig.lines (config : CoreConfig) : List Toml.Line :=
  fixedLines
    ++ ([.pair "NETWORK_PASSPHRASE".toList (.string config.networkPassphrase.toList)]
      ++ ([.pair "BUCKET_DIR_PATH".toList (.string (joinPath config.workingDir "buckets").toList)]
        ++ config.historyArchiveUrls.zipIdx.flatMap archiveLines))

theorem linesOf_texts : linesOf config.texts = if config.Clean then some config.lines else none := by
  have hurls : (∀ entry ∈ config.historyArchiveUrls.zipIdx, Plain entry.1.toList) ↔
      ∀ url ∈ config.historyArchiveUrls, Plain url.toList := by
    have hmap : config.historyArchiveUrls.zipIdx.map Prod.fst = config.historyArchiveUrls := List.zipIdx_map_fst _ _
    have hforall := List.forall_mem_map (l := config.historyArchiveUrls.zipIdx) (f := Prod.fst)
      (P := fun url => Plain url.toList)
    rw [hmap] at hforall
    exact hforall.symm
  have hpath : Plain (joinPath config.workingDir "buckets").toList ↔ Plain config.workingDir.toList :=
    plain_joinPath (by decide +kernel)
  unfold CoreConfig.texts CoreConfig.lines
  rw [Toml.linesOf_append, Toml.linesOf_append, Toml.linesOf_append, linesOf_fixed, Toml.linesOf_stringLine (by decide +kernel),
    Toml.linesOf_stringLine (by decide +kernel), linesOf_archives, Option.bind_some]
  by_cases hpassphrase : Plain config.networkPassphrase.toList
  · by_cases hdir : Plain config.workingDir.toList
    · by_cases harchives : ∀ url ∈ config.historyArchiveUrls, Plain url.toList
      · have hclean : config.Clean := ⟨hpassphrase, hdir, harchives⟩
        rw [if_pos hpassphrase, if_pos (hpath.mpr hdir), if_pos (hurls.mpr harchives), if_pos hclean]
        rfl
      · have hclean : ¬ config.Clean := fun h => harchives h.2.2
        rw [if_pos hpassphrase, if_pos (hpath.mpr hdir), if_neg (fun h => harchives (hurls.mp h)), if_neg hclean]
        rfl
    · have hclean : ¬ config.Clean := fun h => hdir h.2.1
      rw [if_pos hpassphrase, if_neg (fun h => hdir (hpath.mp h)), if_neg hclean]
      rfl
  · have hclean : ¬ config.Clean := fun h => hpassphrase h.1
    rw [if_neg hpassphrase, if_neg hclean]
    rfl

/-! ## Settings -/

theorem settings_archives (path : List Toml.Text) (entries : List (String × Nat)) :
    Toml.settings path (entries.flatMap archiveLines ++ [.blank]) = entries.map archiveSetting := by
  induction entries generalizing path with
  | nil => rfl
  | cons entry entries ih => exact congrArg (archiveSetting entry :: ·) (ih _)

theorem tables_archives (entries : List (String × Nat)) :
    Toml.tables (entries.flatMap archiveLines ++ [.blank]) = entries.map (fun e => ["HISTORY".toList, archiveName e.2]) := by
  induction entries with
  | nil => rfl
  | cons entry entries ih => exact congrArg (["HISTORY".toList, archiveName entry.2] :: ·) ih

theorem lines_blank : config.lines ++ [.blank] =
    fixedLines
      ++ .pair "NETWORK_PASSPHRASE".toList (.string config.networkPassphrase.toList)
      :: .pair "BUCKET_DIR_PATH".toList (.string (joinPath config.workingDir "buckets").toList)
      :: (config.historyArchiveUrls.zipIdx.flatMap archiveLines ++ [.blank]) := by
  simp only [CoreConfig.lines, List.append_assoc, List.cons_append, List.nil_append]

theorem settings_lines : Toml.settings [] (config.lines ++ [.blank]) = config.settings := by
  rw [lines_blank, CoreConfig.settings, ← settings_archives [] config.historyArchiveUrls.zipIdx]
  rfl

theorem archiveName_injective : Function.Injective archiveName := by
  intro i j h
  have hdigits : Nat.toDigits 10 i = Nat.toDigits 10 j := List.append_cancel_left h
  rw [← Nat.ofDigitChars_ten_toDigits (n := i), hdigits, Nat.ofDigitChars_ten_toDigits]

/-- Something made of the number of an archive comes once. -/
theorem nodup_archives {α : Type} {f : Nat → α} (hf : Function.Injective f) (urls : List String) :
    (urls.zipIdx.map (fun e => f e.2)).Nodup := by
  have hmap : urls.zipIdx.map (fun e => f e.2) = (urls.zipIdx.map Prod.snd).map f := by
    rw [List.map_map]
    rfl
  rw [hmap, List.zipIdx_map_snd]
  exact (List.nodup_range' ..).map hf

/-- The keys that are in no table. -/
def settingKeys : List (List Toml.Text × Toml.Text) :=
  fixedSettings.map Prod.fst ++ [([], "NETWORK_PASSPHRASE".toList), ([], "BUCKET_DIR_PATH".toList)]

theorem lines_distinct : Toml.Distinct (config.lines ++ [.blank]) := by
  constructor
  · have htables : Toml.tables (config.lines ++ [.blank])
        = config.historyArchiveUrls.zipIdx.map (fun e => ["HISTORY".toList, archiveName e.2]) := by
      rw [lines_blank, ← tables_archives]
      rfl
    rw [htables]
    refine nodup_archives (f := fun n => ["HISTORY".toList, archiveName n]) ?_ _
    intro i j h
    exact archiveName_injective (List.cons.inj (List.cons.inj h).2).1
  · have hkeys : (Toml.settings [] (config.lines ++ [.blank])).map Prod.fst
        = settingKeys ++ config.historyArchiveUrls.zipIdx.map (fun e => (["HISTORY".toList, archiveName e.2], "get".toList)) := by
      rw [settings_lines, CoreConfig.settings, List.map_append, List.map_map]
      rfl
    have hfirst : settingKeys.Nodup ∧ ∀ key ∈ settingKeys, key.1 = [] := by decide +kernel
    rw [hkeys, List.nodup_append]
    refine ⟨hfirst.1, ?_, ?_⟩
    · refine nodup_archives (f := fun n => (["HISTORY".toList, archiveName n], "get".toList)) ?_ _
      intro i j h
      exact archiveName_injective (List.cons.inj (List.cons.inj (Prod.mk.inj h).1).2).1
    · rintro key hkey key' hkey' rfl
      obtain ⟨entry, -, rfl⟩ := List.mem_map.mp hkey'
      exact List.cons_ne_nil _ _ (hfirst.2 _ hkey)

/-- **The core reads the settings it is given**, and reads nothing if a text has a control character: no other character
    can end a string or begin another setting. -/
theorem renderedToml_read (config : CoreConfig) :
    Toml.read config.renderedToml = if config.Clean then some config.settings else none := by
  rw [renderedToml_eq, Toml.read_unlines, linesOf_texts]
  split
  · rw [Option.bind_some, if_pos lines_distinct, settings_lines]
  · rfl

end XlmNs.Ingestion
