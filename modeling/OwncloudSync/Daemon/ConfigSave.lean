import OwncloudSync.Daemon.AppConfig
import Mathlib.Data.List.Infix
import Mathlib.Tactic.Common

/-!
# Saving the configuration

`AppConfig::save` renders the configuration as TOML and hands the text to `std::fs::write`, which
opens the file, **truncating it**, and then writes the text.  (A download goes through a temporary
file and a rename; this does not.)  So the process may stop, or the disk be full, at any point of
`saveTrace`: with the old text, with any prefix of the new one, or with all of it.

Some of these prefixes are no TOML, and `load` fails; some are, and `load` returns what is left.
The empty file is the worst of them: all fields of `AppConfig` have defaults, so it loads as a
configuration without accounts.

The crate `toml` is a parameter, and `TomlCrate.Syntax` and `TomlCrate.Writes` are what is used
of it.
-/

namespace OwncloudSync

/-- What a file holds. -/
abbrev Bytes := List UInt8

/-- The bytes of an ASCII text. -/
def ascii (s : String) : Bytes := s.toList.map (fun c => UInt8.ofNat c.toNat)

/-- The two functions of the crate `toml`, at `AppConfig`. -/
structure TomlCrate where
  toStringPretty : AppConfig → Option Bytes
  /-- after `read_to_string`, so that bytes that are no UTF-8 fail too -/
  fromStr : Bytes → Option AppConfig

namespace TomlCrate

/-- A table header that is not closed and a key without a value are no TOML; the empty document
is, and `AppConfig` has a default for every field. -/
structure Syntax (toml : TomlCrate) : Prop where
  empty : toml.fromStr [] = some {}
  header : toml.fromStr (ascii "[") = none
  key : toml.fromStr (ascii "a") = none

/-- What is written of a configuration.  Every value of it is a string, a boolean, an unsigned
integer or a table of such, so there is always a text; the text begins with the header
`[general]`, or with the key `account` where the list is empty. -/
structure Writes (toml : TomlCrate) (cfg : AppConfig) : Prop where
  renders : toml.toStringPretty cfg ≠ none
  opens : ∀ text, toml.toStringPretty cfg = some text →
    ascii "[" <+: text ∨ ascii "a" <+: text

end TomlCrate

namespace AppConfig

/-- `AppConfig::load`. -/
def load (toml : TomlCrate) (file : Option Bytes) : Option AppConfig := file.bind toml.fromStr

/-- What the file holds at the points at which `AppConfig::save` can fail or the process can stop:
before the file is opened, and after each prefix of the write. -/
def saveTrace (toml : TomlCrate) (file : Option Bytes) (cfg : AppConfig) : List (Option Bytes) :=
  file ::
    match toml.toStringPretty cfg with
    | none => []
    | some text => text.inits.map some

/-- Wherever the save stops, the next `load` returns the old or the new configuration. -/
def CrashSafe (toml : TomlCrate) (file : Option Bytes) (old new : AppConfig) : Prop :=
  ∀ content ∈ saveTrace toml file new, ∃ cfg, load toml content = some cfg ∧
    (cfg = old ∨ cfg = new)

/-- Somewhere the save can stop so that the next `load` returns a configuration with fewer
accounts than the old and the new one. -/
def LosesAccounts (toml : TomlCrate) (file : Option Bytes) (old new : AppConfig) : Prop :=
  ∃ content ∈ saveTrace toml file new, ∃ cfg, load toml content = some cfg ∧
    cfg.account.length < old.account.length ∧ cfg.account.length < new.account.length

variable {toml : TomlCrate} {file : Option Bytes} {old new : AppConfig} {text content : Bytes}

lemma mem_saveTrace (h : toml.toStringPretty new = some text) (hc : content <+: text) :
    some content ∈ saveTrace toml file new := by
  rw [saveTrace, h]
  exact List.mem_cons_of_mem _ (List.mem_map_of_mem ((List.mem_inits _ _).mpr hc))

/-- After the first byte nothing can be loaded. -/
lemma load_eq_none_after_first (hsyn : toml.Syntax) (hnew : toml.Writes new)
    (h : toml.toStringPretty new = some text) :
    ∃ content ∈ saveTrace toml file new, load toml content = none := by
  rcases hnew.opens text h with hopen | hopen
  · exact ⟨some (ascii "["), mem_saveTrace h hopen, hsyn.header⟩
  · exact ⟨some (ascii "a"), mem_saveTrace h hopen, hsyn.key⟩

/-- After the truncation a configuration without accounts is loaded. -/
lemma losesAccounts (hsyn : toml.Syntax) (h : toml.toStringPretty new = some text)
    (hold : old.account ≠ []) (hacc : new.account ≠ []) : LosesAccounts toml file old new :=
  ⟨some [], mem_saveTrace h List.nil_prefix, {}, hsyn.empty, List.length_pos_iff.mpr hold,
    List.length_pos_iff.mpr hacc⟩

/-- **No save is crash-safe**, whatever the file held and whatever is saved: after the first byte
nothing can be loaded.  And where the old and the new configuration have accounts, the truncation
loses all of them. -/
theorem save_not_crashSafe (toml : TomlCrate) (hsyn : toml.Syntax) (file : Option Bytes)
    (old new : AppConfig) (hnew : toml.Writes new) :
    ¬ CrashSafe toml file old new ∧
    (old.account ≠ [] → new.account ≠ [] → LosesAccounts toml file old new) := by
  obtain ⟨text, htext⟩ := Option.ne_none_iff_exists'.mp hnew.renders
  refine ⟨fun hsafe => ?_, fun hacc hacc' => losesAccounts hsyn htext hacc hacc'⟩
  obtain ⟨content, hmem, hload⟩ := load_eq_none_after_first hsyn hnew htext
  obtain ⟨cfg, hcfg, -⟩ := hsafe content hmem
  rw [hload] at hcfg
  cases hcfg

/-! ## A file with one account -/

/-- A config to be saved. -/
def oneAccount : AppConfig where
  account := [{
    id := 0x11111111111111111111111111111111
    url := "https://ocis.example.com".toList
    username := "alice".toList
    displayName := "Alice".toList }]

/-- Its text, line by line. -/
def oneAccountText : Bytes :=
  ["[general]",
    "log_level = \"info\"",
    "notification_enabled = true",
    "poll_interval_secs = 30",
    "space_poll_interval_secs = 300",
    "insecure = false",
    "",
    "[[account]]",
    "id = \"11111111-1111-1111-1111-111111111111\"",
    "url = \"https://ocis.example.com\"",
    "user_id = \"\"",
    "username = \"alice\"",
    "display_name = \"Alice\"",
    "server_type = \"ocis\"",
    "folder = []",
    "dismissed_spaces = []"].flatMap (fun line => ascii line ++ [10])

/-- The crate at this file, at the empty one and where it was cut after the first byte. -/
def oneAccountToml : TomlCrate where
  toStringPretty cfg := if cfg = oneAccount then some oneAccountText else none
  fromStr text :=
    if text = [] then some {} else if text = oneAccountText then some oneAccount else none

lemma oneAccountToml_renders : oneAccountToml.toStringPretty oneAccount = some oneAccountText := by
  simp only [oneAccountToml, if_true]

/-- The text begins with an opening bracket and goes on. -/
lemma oneAccountText_opens : ∃ b rest, oneAccountText = 91 :: b :: rest := by
  rw [oneAccountText, List.flatMap_cons]
  exact ⟨103, _, rfl⟩

lemma oneAccountToml_cut (b : UInt8) : oneAccountToml.fromStr [b] = none := by
  obtain ⟨c, rest, htext⟩ := oneAccountText_opens
  simp only [oneAccountToml]
  rw [if_neg (List.cons_ne_nil _ _), if_neg (by rw [htext]; simp)]

lemma oneAccountToml_syntax : oneAccountToml.Syntax :=
  ⟨rfl, oneAccountToml_cut 91, oneAccountToml_cut 97⟩

lemma oneAccountToml_writes : oneAccountToml.Writes oneAccount where
  renders := by
    rw [oneAccountToml_renders]
    simp
  opens text h := by
    obtain ⟨b, rest, htext⟩ := oneAccountText_opens
    rw [oneAccountToml_renders, Option.some.injEq, htext] at h
    subst h
    exact Or.inl ⟨b :: rest, rfl⟩

/-- The theorem at this file, saved once more. -/
theorem oneAccount_not_crashSafe :
    ¬ CrashSafe oneAccountToml (some oneAccountText) oneAccount oneAccount :=
  (save_not_crashSafe oneAccountToml oneAccountToml_syntax (some oneAccountText) oneAccount
    oneAccount oneAccountToml_writes).1

/-- The process stops right after the truncation: the account is gone. -/
theorem oneAccount_lost :
    ¬ CrashSafe oneAccountToml (some oneAccountText) oneAccount oneAccount ∧
      LosesAccounts oneAccountToml (some oneAccountText) oneAccount oneAccount := by
  have hlost : LosesAccounts oneAccountToml (some oneAccountText) oneAccount oneAccount :=
    losesAccounts oneAccountToml_syntax oneAccountToml_renders (by simp [oneAccount])
      (by simp [oneAccount])
  refine ⟨fun hsafe => ?_, hlost⟩
  obtain ⟨content, hmem, cfg, hload, hless, -⟩ := hlost
  obtain ⟨cfg', hload', hsame⟩ := hsafe content hmem
  obtain rfl := Option.some.inj (hload.symm.trans hload')
  rw [or_self] at hsame
  rw [hsame] at hless
  exact absurd hless (lt_irrefl _)

end AppConfig

end OwncloudSync
