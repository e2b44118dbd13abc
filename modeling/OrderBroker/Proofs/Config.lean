import OrderBroker.Config
import Mathlib.Data.List.TakeWhile

/-!
# A configuration depends on what is in force

Two environments are the same in force (`Environment.SameInForce`) if they differ only in what a
configuration does not look at: blank values of variables that are not set, blanks around values
that are read without them, the variables of vendors that are not enabled, files that are named in
the place of material that is there, and variables of other names. Whatever is read from an
environment is the same in both, from a single value (`get_congr`, `read_congr`) to a vendor's
settings (`bankId_congr`, `freja_congr`), and so is the configuration or the fault (`same_config`).
-/

namespace OrderBroker

/-- A text is blank if nothing of it is left when it is trimmed. -/
theorem Text.trim_eq_empty_iff {s : String} : Text.trim s = "" ↔ Text.isBlankText s = true := by
  have hall : (∀ c ∈ s.toList.dropWhile Text.isBlank, Text.isBlank c = true) ↔
      ∀ c ∈ s.toList, Text.isBlank c = true := by
    constructor
    · intro hrest c hc
      rw [← List.takeWhile_append_dropWhile (p := Text.isBlank) (l := s.toList)] at hc
      exact (List.mem_append.1 hc).elim (fun hc => List.mem_takeWhile_imp hc) (hrest c)
    · exact fun hs c hc => hs c ((List.dropWhile_sublist _).subset hc)
  rw [← String.toList_inj, Text.trim, String.toList_ofList, String.toList_empty, Text.trimChars,
    Text.trimEnd, Text.trimStart, List.reverse_eq_nil_iff, List.dropWhile_eq_nil_iff,
    Text.isBlankText, List.all_eq_true, ← hall]
  simp only [List.mem_reverse]

namespace Environment

/-! ## What is in force -/

/-- The variables whose values are read without the blanks around them: numbers, formats, levels
and flags. -/
def trimmedNames : List String := [
  "HTTP_PORT", "STREAM_ENCODER", "LOG_FORMAT", "SHUTDOWN_GRACE_SECS", "EID_BANKID_ENABLE",
  "EID_BANKID_POLL_INTERVAL_MS", "EID_FREJA_ENABLE", "EID_FREJA_POLL_INTERVAL_MS",
  "EID_FREJA_REGISTRATION_LEVEL"]

/-- The variables of the broker itself. -/
def serverNames : List String := [
  "HOST", "HTTP_PORT", "STREAM_ENCODER", "LOG_FORMAT", "SHUTDOWN_GRACE_SECS"]

/-- The names that the variables of a vendor start with. -/
def vendors : List String := ["EID_BANKID", "EID_FREJA"]

/-- The variable is one of the vendor's: their names start alike. -/
def OfVendor (vendor var : String) : Prop := vendor.toList <+: var.toList

instance (vendor var : String) : Decidable (OfVendor vendor var) :=
  inferInstanceAs (Decidable (vendor.toList <+: var.toList))

/-- The vendor is enabled in neither environment. -/
def Disabled (env₁ env₂ : Environment) (vendor : String) : Prop :=
  env₁.flag (vendor ++ "_ENABLE") = .ok false ∧ env₂.flag (vendor ++ "_ENABLE") = .ok false

/-- The variable is not looked at in either environment. -/
inductive Unread (env₁ env₂ : Environment) : String → Prop
  /-- Its vendor is not enabled. -/
  | disabled {vendor var : String} : vendor ∈ vendors → Disabled env₁ env₂ vendor →
      OfVendor vendor var → Unread env₁ env₂ var
  /-- It names a file for material that is there. -/
  | overridden {pem : String} : pem ∈ pemNames → (env₁.get pem).isSome = true →
      (env₂.get pem).isSome = true → Unread env₁ env₂ (pem ++ "_FILE")

/-- How the values of a variable may differ in two environments. -/
inductive Alike (env₁ env₂ : Environment) (var : String) : Prop
  | same : env₁.value var = env₂.value var → Alike env₁ env₂ var
  /-- It is absent in one and blank in the other. -/
  | absentFirst {text : String} : env₁.value var = none → env₂.value var = some text →
      Text.isBlankText text = true → Alike env₁ env₂ var
  | absentSecond {text : String} : env₁.value var = some text → Text.isBlankText text = true →
      env₂.value var = none → Alike env₁ env₂ var
  | unread : Unread env₁ env₂ var → Alike env₁ env₂ var
  /-- The values differ in the blanks around them. -/
  | trimmed {a b : String} : var ∈ trimmedNames → env₁.value var = some a →
      env₂.value var = some b → Text.trim a = Text.trim b → Alike env₁ env₂ var
  | unknown : var ∉ names → Alike env₁ env₂ var

/-- Two environments differ only in what a configuration does not look at. A file may be another one
if it is named only where it is not read. -/
structure SameInForce (env₁ env₂ : Environment) : Prop where
  value : ∀ var, Alike env₁ env₂ var
  file : ∀ path, env₁.file path = env₂.file path ∨ ∀ pem ∈ pemNames,
    env₁.get (pem ++ "_FILE") = some path ∨ env₂.get (pem ++ "_FILE") = some path →
      Unread env₁ env₂ (pem ++ "_FILE")

/-! ## Reading a variable -/

section
variable {env env₁ env₂ : Environment} {var vendor pem path text : String}

theorem get_of_absent (hvalue : env.value var = none) : env.get var = none := by
  rw [get, hvalue, Option.filter_none]

theorem get_of_blank (hvalue : env.value var = some text) (hblank : Text.isBlankText text = true) :
    env.get var = none := by
  simp [get, hvalue, hblank]

/-- A variable that is looked at is set to the same value, or to values of which only the blanks
around them differ, which do not count. -/
theorem get_alike (h : SameInForce env₁ env₂) (hname : var ∈ names)
    (hread : ¬ Unread env₁ env₂ var) :
    env₁.get var = env₂.get var ∨ (var ∈ trimmedNames ∧
      ∃ a b, env₁.value var = some a ∧ env₂.value var = some b ∧ Text.trim a = Text.trim b) := by
  cases h.value var with
  | same hvalue => exact .inl (by rw [get, get, hvalue])
  | absentFirst hfirst hsecond hblank =>
    exact .inl (by rw [get_of_absent hfirst, get_of_blank hsecond hblank])
  | absentSecond hfirst hblank hsecond =>
    exact .inl (by rw [get_of_blank hfirst hblank, get_of_absent hsecond])
  | unread hunread => exact absurd hunread hread
  | trimmed htrimmed hfirst hsecond htrim => exact .inr ⟨htrimmed, _, _, hfirst, hsecond, htrim⟩
  | unknown hunknown => exact absurd hname hunknown

/-- A variable that is looked at is set to the same value, if the blanks around it count. -/
theorem get_congr (h : SameInForce env₁ env₂) (hname : var ∈ names)
    (hread : ¬ Unread env₁ env₂ var) (hexact : var ∉ trimmedNames) :
    env₁.get var = env₂.get var :=
  (get_alike h hname hread).resolve_right fun htrimmed => hexact htrimmed.1

/-- A variable that is looked at is set in neither environment, or in both to values of which at
most the blanks around them differ. -/
theorem trim_get_congr (h : SameInForce env₁ env₂) (hname : var ∈ names)
    (hread : ¬ Unread env₁ env₂ var) :
    (env₁.get var = none ∧ env₂.get var = none) ∨
      ∃ a b, env₁.get var = some a ∧ env₂.get var = some b ∧ Text.trim a = Text.trim b := by
  obtain hget | ⟨-, a, b, hfirst, hsecond, htrim⟩ := get_alike h hname hread
  · rw [hget]
    cases env₂.get var with
    | none => exact .inl ⟨rfl, rfl⟩
    | some b => exact .inr ⟨b, b, rfl, rfl, rfl⟩
  · -- Values with the same text between their blanks are both blank or both set.
    have hblank : Text.isBlankText a = Text.isBlankText b :=
      Bool.eq_iff_iff.2 (Text.trim_eq_empty_iff.symm.trans (htrim ▸ Text.trim_eq_empty_iff))
    simp only [get, hfirst, hsecond, Option.filter_some, hblank]
    cases Text.isBlankText b <;> simp [htrim]

/-- A value that is read is the same, if the variable is looked at. -/
theorem read_congr {α : Type} (h : SameInForce env₁ env₂) (hname : var ∈ names)
    (hread : ¬ Unread env₁ env₂ var) (parse : String → Except String α) :
    env₁.read var parse = env₂.read var parse := by
  obtain ⟨hfirst, hsecond⟩ | ⟨a, b, hfirst, hsecond, htrim⟩ := trim_get_congr h hname hread
  · simp only [read, hfirst, hsecond]
  · simp only [read, hfirst, hsecond, htrim]

/-- A truth value is the same, if the variable is looked at. -/
theorem flag_congr (h : SameInForce env₁ env₂) (hname : var ∈ names)
    (hread : ¬ Unread env₁ env₂ var) : env₁.flag var = env₂.flag var := by
  obtain ⟨hfirst, hsecond⟩ | ⟨a, b, hfirst, hsecond, htrim⟩ := trim_get_congr h hname hread
  · simp only [flag, hfirst, hsecond]
  · simp only [flag, hfirst, hsecond, htrim]

/-! ## Variables of the broker and of its vendors -/

/-- A name that goes on from a variable's is of the same vendor. -/
theorem OfVendor.append (h : OfVendor vendor var) (suffix : String) :
    OfVendor vendor (var ++ suffix) := by
  rw [OfVendor, String.toList_append]
  exact h.trans (List.prefix_append _ _)

/-- A name that goes on from a vendor's is one of the vendor's. -/
theorem ofVendor_append (vendor suffix : String) : OfVendor vendor (vendor ++ suffix) :=
  OfVendor.append (List.prefix_refl _) suffix

/-- No variable belongs to two vendors. -/
theorem vendor_unique {v₁ v₂ : String} (hv₁ : v₁ ∈ vendors) (hv₂ : v₂ ∈ vendors)
    (h₁ : OfVendor v₁ var) (h₂ : OfVendor v₂ var) : v₁ = v₂ := by
  -- Neither of two vendors starts like the other.
  have hapart : ∀ v₁ ∈ vendors, ∀ v₂ ∈ vendors, OfVendor v₁ v₂ → v₁ = v₂ := by decide
  rcases List.prefix_or_prefix_of_prefix h₁ h₂ with hprefix | hprefix
  · exact hapart v₁ hv₁ v₂ hv₂ hprefix
  · exact (hapart v₂ hv₂ v₁ hv₁ hprefix).symm

/-- A variable of the broker itself is looked at. -/
theorem not_unread_of_server (hvar : var ∈ serverNames) : ¬ Unread env₁ env₂ var := by
  have hnames : ∀ var ∈ serverNames, var ∉ fileNames ∧ ∀ vendor ∈ vendors,
      ¬ OfVendor vendor var := by decide
  obtain ⟨hfile, hvendor⟩ := hnames var hvar
  intro hunread
  cases hunread with
  | disabled hmem _ hname => exact hvendor _ hmem hname
  | overridden hpem _ _ => exact hfile (List.mem_map_of_mem hpem)

section
variable (h : SameInForce env₁ env₂) (hvendor : vendor ∈ vendors)
  (henabled : ¬ Disabled env₁ env₂ vendor)
include hvendor henabled

/-- What is not looked at of a vendor that is enabled names a file for material that is there. -/
theorem unread_of_enabled (hname : OfVendor vendor var) (hunread : Unread env₁ env₂ var) :
    ∃ pem ∈ pemNames, var = pem ++ "_FILE" ∧ (env₁.get pem).isSome = true := by
  cases hunread with
  | disabled hmem hoff hname' =>
    exact absurd (vendor_unique hmem hvendor hname' hname ▸ hoff) henabled
  | overridden hpem hfirst _ => exact ⟨_, hpem, rfl, hfirst⟩

/-- A variable of a vendor that is enabled is looked at, unless it names a file. -/
theorem not_unread_of_enabled (hname : OfVendor vendor var) (hfile : var ∉ fileNames) :
    ¬ Unread env₁ env₂ var := by
  intro hunread
  obtain ⟨pem, hpem, rfl, -⟩ := unread_of_enabled hvendor henabled hname hunread
  exact hfile (List.mem_map_of_mem hpem)

include h

/-- A variable of a vendor that is enabled is set to the same value, if the blanks around it
count. -/
theorem get_congr_of_enabled (hknown : var ∈ names) (hname : OfVendor vendor var)
    (hfile : var ∉ fileNames) (hexact : var ∉ trimmedNames) : env₁.get var = env₂.get var :=
  get_congr h hknown (not_unread_of_enabled hvendor henabled hname hfile) hexact

/-- A value that is read for a vendor that is enabled is the same. -/
theorem read_congr_of_enabled {α : Type} {parse : String → Except String α}
    (hknown : var ∈ names) (hname : OfVendor vendor var) (hfile : var ∉ fileNames) :
    env₁.read var parse = env₂.read var parse :=
  read_congr h hknown (not_unread_of_enabled hvendor henabled hname hfile) parse

/-- Material of a vendor that is enabled is the same. -/
theorem pem_congr (hpem : pem ∈ pemNames) (hname : OfVendor vendor pem) :
    env₁.pem pem = env₂.pem pem := by
  have hnames : ∀ pem ∈ pemNames, pem ∉ fileNames ∧ pem ∉ trimmedNames ∧
      pem ++ "_FILE" ∉ trimmedNames := by decide +kernel
  obtain ⟨hnofile, hexact, hfileexact⟩ := hnames pem hpem
  have hknown : pem ∈ names := List.mem_append_left _ (List.mem_append_right _ hpem)
  have hfileknown : pem ++ "_FILE" ∈ names :=
    List.mem_append_right _ (List.mem_map_of_mem hpem)
  have hinline : env₁.get pem = env₂.get pem :=
    get_congr_of_enabled h hvendor henabled hknown hname hnofile hexact
  rw [Environment.pem, Environment.pem, ← hinline]
  cases hmissing : env₁.get pem with
  | some text => rfl
  | none =>
    -- Nothing overrides the file, so that its name and what is in it count.
    have hread : ¬ Unread env₁ env₂ (pem ++ "_FILE") := by
      intro hunread
      obtain ⟨pem', -, heq, hthere⟩ :=
        unread_of_enabled hvendor henabled (hname.append "_FILE") hunread
      rw [← (String.append_left_inj _).1 heq, hmissing] at hthere
      cases hthere
    have hpath : env₁.get (pem ++ "_FILE") = env₂.get (pem ++ "_FILE") :=
      get_congr h hfileknown hread hfileexact
    simp only [← hpath]
    cases hnamed : env₁.get (pem ++ "_FILE") with
    | none => rfl
    | some path =>
      have hfile : env₁.file path = env₂.file path := (h.file path).resolve_right fun hunread =>
        hread (hunread pem hpem (.inl hnamed))
      simp only [hfile]

/-- The material of the connection to a vendor that is enabled is the same. -/
theorem tls_congr : env₁.tls vendor = env₂.tls vendor := by
  have hnames : ∀ vendor ∈ vendors, vendor ++ "_ROOT_CA_PEM" ∈ pemNames ∧
      vendor ++ "_CLIENT_CERT" ∈ pemNames ∧ vendor ++ "_CLIENT_KEY" ∈ pemNames := by decide
  obtain ⟨hroot, hcert, hkey⟩ := hnames vendor hvendor
  rw [tls, tls, pem_congr h hvendor henabled hroot (ofVendor_append _ _),
    pem_congr h hvendor henabled hcert (ofVendor_append _ _),
    pem_congr h hvendor henabled hkey (ofVendor_append _ _)]

end

/-- Whether a vendor is enabled is the same. -/
theorem enabled_congr (h : SameInForce env₁ env₂) (hvendor : vendor ∈ vendors) :
    env₁.flag (vendor ++ "_ENABLE") = env₂.flag (vendor ++ "_ENABLE") := by
  have hnames : ∀ vendor ∈ vendors, vendor ++ "_ENABLE" ∈ names ∧
      vendor ++ "_ENABLE" ∉ fileNames := by decide
  obtain ⟨hknown, hfile⟩ := hnames vendor hvendor
  by_cases hdisabled : Disabled env₁ env₂ vendor
  · rw [hdisabled.1, hdisabled.2]
  · exact flag_congr h hknown
      (not_unread_of_enabled hvendor hdisabled (ofVendor_append _ _) hfile)

/-! ## Settings -/

/-- BankID's settings are the same. -/
theorem bankId_congr (h : SameInForce env₁ env₂) : env₁.bankId = env₂.bankId := by
  have hvendor : "EID_BANKID" ∈ vendors := by decide
  have hflag : env₁.flag "EID_BANKID_ENABLE" = env₂.flag "EID_BANKID_ENABLE" :=
    enabled_congr h hvendor
  by_cases hdisabled : Disabled env₁ env₂ "EID_BANKID"
  · have hfirst : env₁.flag "EID_BANKID_ENABLE" = .ok false := hdisabled.1
    rw [bankId, bankId, ← hflag, hfirst]
    rfl
  · have hurl : env₁.get "EID_BANKID_URL" = env₂.get "EID_BANKID_URL" :=
      get_congr_of_enabled h hvendor hdisabled (by decide) (by decide) (by decide) (by decide)
    rw [bankId, bankId, hflag, hurl, tls_congr h hvendor hdisabled, natural, natural,
      read_congr_of_enabled h hvendor hdisabled (by decide) (by decide) (by decide)]

/-- Freja's settings are the same. -/
theorem freja_congr (h : SameInForce env₁ env₂) : env₁.freja = env₂.freja := by
  have hvendor : "EID_FREJA" ∈ vendors := by decide
  have hflag : env₁.flag "EID_FREJA_ENABLE" = env₂.flag "EID_FREJA_ENABLE" :=
    enabled_congr h hvendor
  by_cases hdisabled : Disabled env₁ env₂ "EID_FREJA"
  · have hfirst : env₁.flag "EID_FREJA_ENABLE" = .ok false := hdisabled.1
    rw [freja, freja, ← hflag, hfirst]
    rfl
  · have hurl : env₁.get "EID_FREJA_URL" = env₂.get "EID_FREJA_URL" :=
      get_congr_of_enabled h hvendor hdisabled (by decide) (by decide) (by decide) (by decide)
    have hkey : env₁.pem "EID_FREJA_JWS_PUBLIC_KEY_PEM" = env₂.pem "EID_FREJA_JWS_PUBLIC_KEY_PEM" :=
      pem_congr h hvendor hdisabled (by decide) (by decide)
    rw [freja, freja, hflag, hurl, tls_congr h hvendor hdisabled, hkey, natural, natural,
      read_congr_of_enabled h hvendor hdisabled (by decide) (by decide) (by decide),
      read_congr_of_enabled h hvendor hdisabled (by decide) (by decide) (by decide)]

/-- What is read after something else is read only if that is there. -/
theorem exists_ok_of_bind {α β : Type} {x : Except ConfigFault α}
    {f : α → Except ConfigFault β} {b : β} (h : (x >>= f) = .ok b) :
    ∃ a, x = .ok a ∧ f a = .ok b := by
  cases x with
  | error fault => cases h
  | ok a => exact ⟨a, rfl, h⟩

/-- Freja is never asked more often than once a second. -/
theorem frejaLeastInterval_le {settings : Freja.Settings}
    (hread : env.freja = .ok (some settings)) : frejaLeastInterval ≤ settings.pollInterval := by
  obtain ⟨enabled, -, hread⟩ := exists_ok_of_bind hread
  cases enabled with
  | false => cases hread
  | true =>
    obtain ⟨material, -, hread⟩ := exists_ok_of_bind hread
    obtain ⟨tokenKey, -, hread⟩ := exists_ok_of_bind hread
    obtain ⟨interval, -, hread⟩ := exists_ok_of_bind hread
    obtain ⟨level, -, hread⟩ := exists_ok_of_bind hread
    obtain rfl := Option.some.inj (Except.ok.inj hread)
    exact Nat.le_max_left _ _

end

end Environment

namespace Config

open Environment

/-- Freja's settings in a configuration are those that are read from the environment. -/
theorem freja_of_ok {env : Environment} {c : Config} (hread : ofEnvironment env = .ok c) :
    env.freja = .ok c.freja := by
  obtain ⟨port, -, hread⟩ := exists_ok_of_bind hread
  obtain ⟨format, -, hread⟩ := exists_ok_of_bind hread
  obtain ⟨logFormat, -, hread⟩ := exists_ok_of_bind hread
  obtain ⟨grace, -, hread⟩ := exists_ok_of_bind hread
  obtain ⟨bankId, -, hread⟩ := exists_ok_of_bind hread
  obtain ⟨freja, hfreja, hread⟩ := exists_ok_of_bind hread
  obtain rfl := Except.ok.inj hread
  exact hfreja

/-- Environments that differ only in what is not in force give the same configuration, or the same
fault. Whatever the environment, Freja is asked at most once a second. -/
theorem same_config :
    (∀ env₁ env₂ : Environment, SameInForce env₁ env₂ →
      ofEnvironment env₁ = ofEnvironment env₂) ∧
    ∀ (env : Environment) (c : Config) (settings : Freja.Settings),
      ofEnvironment env = .ok c → c.freja = some settings → 1000 ≤ settings.pollInterval := by
  constructor
  · intro env₁ env₂ h
    have hknown : ∀ var ∈ serverNames, var ∈ names := by decide
    have hhost : env₁.get "HOST" = env₂.get "HOST" :=
      get_congr h (by decide) (not_unread_of_server (by decide)) (by decide)
    have hread {α : Type} (var : String) (parse : String → Except String α)
        (hvar : var ∈ serverNames) : env₁.read var parse = env₂.read var parse :=
      read_congr h (hknown var hvar) (not_unread_of_server hvar) parse
    unfold ofEnvironment natural
    rw [hhost, hread "HTTP_PORT" _ (by decide), hread "STREAM_ENCODER" _ (by decide),
      hread "LOG_FORMAT" _ (by decide), hread "SHUTDOWN_GRACE_SECS" _ (by decide),
      bankId_congr h, freja_congr h]
  · intro env c settings hread hsettings
    exact frejaLeastInterval_le ((freja_of_ok hread).trans (congrArg Except.ok hsettings))

/-- An environment that says just what is in force. -/
def tidy : Environment := .ofLists [
    ("HTTP_PORT", "80"), ("EID_FREJA_ENABLE", "true"), ("EID_FREJA_ROOT_CA_PEM", "pem"),
    ("EID_FREJA_POLL_INTERVAL_MS", "10")] []

/-- An environment that says the same among blanks, a vendor that is not enabled, a file that is
overridden and a variable of another program. -/
def untidy : Environment := .ofLists [
    ("HOST", " "), ("HTTP_PORT", " 80 "), ("RUST_LOG", "debug"), ("EID_BANKID_ENABLE", "No"),
    ("EID_BANKID_POLL_INTERVAL_MS", "soon"), ("EID_BANKID_CLIENT_KEY_FILE", "/ca.pem"),
    ("EID_FREJA_ENABLE", "true\n"), ("EID_FREJA_ROOT_CA_PEM", "pem"),
    ("EID_FREJA_ROOT_CA_PEM_FILE", "/ca.pem"), ("EID_FREJA_POLL_INTERVAL_MS", "\t10")]
  [("/ca.pem", .error .isDirectory)]

/-- What is said beside what is in force does not count. -/
theorem untidy_config : SameInForce untidy tidy ∧ ofEnvironment untidy = ofEnvironment tidy ∧
    ∃ c settings, ofEnvironment tidy = .ok c ∧ c.freja = some settings ∧
      1000 ≤ settings.pollInterval := by
  have hbankId {var : String} (hname : OfVendor "EID_BANKID" var) : Unread untidy tidy var :=
    .disabled (by decide) (by constructor <;> decide +kernel) hname
  have hoverridden : Unread untidy tidy ("EID_FREJA_ROOT_CA_PEM" ++ "_FILE") :=
    .overridden (by decide) (by decide) (by decide)
  have hvalues : ∀ var ∈ names, untidy.value var = tidy.value var ∨ var ∈ [
      "HOST", "HTTP_PORT", "EID_BANKID_ENABLE", "EID_BANKID_POLL_INTERVAL_MS",
      "EID_BANKID_CLIENT_KEY_FILE", "EID_FREJA_ENABLE", "EID_FREJA_ROOT_CA_PEM_FILE",
      "EID_FREJA_POLL_INTERVAL_MS"] := by decide
  have hpaths : ∀ pem ∈ pemNames, (untidy.get (pem ++ "_FILE") = none ∧
      tidy.get (pem ++ "_FILE") = none) ∨
        pem ∈ ["EID_BANKID_CLIENT_KEY", "EID_FREJA_ROOT_CA_PEM"] := by decide
  have hsame : SameInForce untidy tidy := by
    constructor
    · intro var
      by_cases hname : var ∈ names
      · obtain hvalue | hdiffers := hvalues var hname
        · exact .same hvalue
        · simp only [List.mem_cons, List.not_mem_nil, or_false] at hdiffers
          rcases hdiffers with rfl | rfl | rfl | rfl | rfl | rfl | rfl | rfl
          · exact .absentSecond rfl (by decide) rfl
          · exact .trimmed (by decide) rfl rfl (by decide +kernel)
          · exact .unread (hbankId (by decide))
          · exact .unread (hbankId (by decide))
          · exact .unread (hbankId (by decide))
          · exact .trimmed (by decide) rfl rfl (by decide +kernel)
          · exact .unread hoverridden
          · exact .trimmed (by decide) rfl rfl (by decide +kernel)
      · exact .unknown hname
    · refine fun path => .inr fun pem hpem hnamed => ?_
      obtain ⟨hfirst, hsecond⟩ | hunread := hpaths pem hpem
      · simp [hfirst, hsecond] at hnamed
      · simp only [List.mem_cons, List.not_mem_nil, or_false] at hunread
        rcases hunread with rfl | rfl
        · exact hbankId (by decide)
        · exact hoverridden
  have hconfig : ofEnvironment tidy = .ok {
    httpPort := 80
    freja := some { tls := { rootCa := some "pem".toUTF8 }, pollInterval := 1000 } } := by
    decide +kernel
  exact ⟨hsame, same_config.1 untidy tidy hsame, _, _, hconfig, rfl,
    same_config.2 tidy _ _ hconfig rfl⟩

end Config

end OrderBroker
