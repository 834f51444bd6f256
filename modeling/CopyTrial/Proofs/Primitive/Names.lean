import CopyTrial.Primitive.Kind
import CopyTrial.Proofs.Numeral
import CopyTrial.Proofs.Text.Trim
import CopyTrial.Proofs.Command.Run

/-!
# The names of primitives

A text names a kind of primitive if it is one of its names, but for blanks around it and the case
of letters. Some names are fixed, and a limit may be written with a plus sign and with zeros in
front. The label of a kind is one of its names, and it is the name of the primitive itself.

## Main definitions

* `Kind.Names` — the names of a kind, in lower case and without blanks around them.

## Main results

* `Kind.readName?_eq_some_iff` — what is read as a kind.
* `Kind.names_label` — the label of a kind is one of its names.
* `Kind.resolve_names` — which texts name which kind, and what else does not matter.
-/

set_option autoImplicit false

namespace CopyTrial

namespace Kind

/-- The names of a kind, in lower case and without blanks around them. -/
inductive Names : List Char → Kind → Prop
  | fixed {name : String} {kind : Kind} (h : (name, kind) ∈ aliases) : Names name.toList kind
  | truncate {sign digits : List Char} (hsign : sign = [] ∨ sign = ['+']) (hdigits : digits ≠ [])
      (hall : ∀ c ∈ digits, c.isDigit) (hvalue : Nat.ofDigitChars 10 digits 0 < UInt64.size) :
      Names ("truncate:".toList ++ (sign ++ digits))
        (.truncate (UInt64.ofNat (Nat.ofDigitChars 10 digits 0)))

/-! ## Reading names -/

/-- Each fixed name is found with its kind. -/
theorem lookup_fixed : ∀ entry ∈ aliases, aliases.lookup entry.1 = some entry.2 := by decide

/-- No fixed name starts as the name with a limit does. -/
theorem lookup_truncate (rest : List Char) :
    aliases.lookup (String.ofList ("truncate:".toList ++ rest)) = none := by
  have hhead : ∀ entry ∈ aliases, entry.1.toList.head? ≠ some 't' := by decide
  rw [List.lookup_eq_none_iff]
  intro entry hentry
  rw [bne_iff_ne]
  intro heq
  apply hhead entry hentry
  rw [← heq, String.toList_ofList]
  rfl

/-- What stands after the start of the name with a limit is read as a decimal numeral. -/
theorem readName?_truncate (rest : List Char) :
    readName? ("truncate:".toList ++ rest) =
      (Numeral.read? 10 UInt64.size rest).map fun n => .truncate (UInt64.ofNat n) := by
  have hstart : "truncate:".toList.isPrefixOf ("truncate:".toList ++ rest) = true :=
    List.isPrefixOf_iff_prefix.2 (List.prefix_append _ _)
  rw [readName?, lookup_truncate]
  dsimp only
  rw [if_pos hstart, List.drop_left]

/-- **What is read as a kind** are its names.

**Proof sketch.** A text that is no fixed name must start as the name with a limit does, and what
stands after that is read as a decimal numeral. -/
theorem readName?_eq_some_iff (name : List Char) (kind : Kind) :
    readName? name = some kind ↔ Names name kind := by
  constructor
  · intro h
    by_cases hlimit : "truncate:".toList <+: name
    · obtain ⟨rest, rfl⟩ := hlimit
      rw [readName?_truncate, Option.map_eq_some_iff] at h
      obtain ⟨n, hn, rfl⟩ := h
      rw [Numeral.read?_eq_some_iff (by decide) (by decide)] at hn
      obtain ⟨digits, hsign, hne, hdigits, rfl, hlt⟩ := hn
      rw [Numeral.worthFrom_ten hdigits] at hlt ⊢
      have hall := (Numeral.areDigits_ten_iff digits).1 hdigits
      rcases hsign with rfl | rfl
      · exact .truncate (.inl rfl) hne hall hlt
      · exact .truncate (.inr rfl) hne hall hlt
    · have hfixed : aliases.lookup (String.ofList name) = some kind := by
        rw [← List.isPrefixOf_iff_prefix] at hlimit
        rw [readName?] at h
        cases hlookup : aliases.lookup (String.ofList name) with
        | some found => rwa [hlookup] at h
        | none =>
          rw [hlookup] at h
          dsimp only at h
          rw [if_neg hlimit] at h
          cases h
      obtain ⟨earlier, later, heq, -⟩ := List.lookup_eq_some_iff.1 hfixed
      rw [← String.toList_ofList (l := name)]
      exact .fixed (by simp [heq])
  · intro h
    cases h with
    | @fixed name kind h =>
      rw [readName?, String.ofList_toList, lookup_fixed _ h]
    | @truncate sign digits hsign hne hall hlt =>
      have hdigits := (Numeral.areDigits_ten_iff digits).2 hall
      have hworth := Numeral.worthFrom_ten hdigits 0
      rw [readName?_truncate, Option.map_eq_some_iff]
      refine ⟨_, (Numeral.read?_eq_some_iff (by decide) (by decide) _).2 ?_, rfl⟩
      refine ⟨digits, ?_, hne, hdigits, hworth, hlt⟩
      rcases hsign with rfl | rfl
      · exact .inl rfl
      · exact .inr rfl

/-- Whether a character is neither a blank nor a capital letter. -/
def isPlain (c : Char) : Bool := !Text.isBlank c && c.toLower == c

/-- A digit is no blank and no capital letter. -/
theorem isPlain_of_isDigit {c : Char} (h : c.isDigit) : isPlain c := by
  have hbounds := Numeral.toNat_of_isDigit h
  have hlower : ¬ (c.val ≥ 'A'.val ∧ c.val ≤ 'Z'.val) := by
    intro hletter
    have hupper : 65 ≤ c.toNat := hletter.1
    omega
  have hblank : Text.isBlank c = false := Text.isBlank_of_visible (by omega) (by omega)
  have hsmall : c.toLower = c := Text.toLower_of_not_upper hlower
  rw [isPlain, hblank, hsmall]
  simp

/-- A name has no blanks and no capital letters. -/
theorem Names.all_isPlain {name : List Char} {kind : Kind} (h : Names name kind) :
    name.all isPlain := by
  cases h with
  | @fixed name kind h =>
    have hall : ∀ entry ∈ aliases, entry.1.toList.all isPlain := by decide
    exact hall _ h
  | @truncate sign digits hsign hne hall hlt =>
    have hstart : "truncate:".toList.all isPlain := by decide
    have hplus : sign.all isPlain := by
      rcases hsign with rfl | rfl <;> decide
    rw [List.all_append, List.all_append, hstart, hplus, Bool.true_and, Bool.true_and]
    exact List.all_eq_true.2 fun c hc => isPlain_of_isDigit (hall c hc)

/-- The label of a kind is one of its names. -/
theorem names_label (kind : Kind) : Names kind.label.toList kind := by
  cases kind with
  | reference => exact .fixed (by decide)
  | wordwise => exact .fixed (by decide)
  | noop => exact .fixed (by decide)
  | external => exact .fixed (by decide)
  | truncate limit =>
    have hname : (label (.truncate limit)).toList =
        "truncate:".toList ++ ([] ++ Nat.toDigits 10 limit.toNat) := by
      simp [label, Nat.repr]
    have hvalue : Nat.ofDigitChars 10 (Nat.toDigits 10 limit.toNat) 0 = limit.toNat :=
      Nat.ofDigitChars_ten_toDigits
    have hnames := Names.truncate (.inl rfl) (Nat.toDigits_ne_nil)
      (fun c hc => Json.isDigit_of_mem_toDigits c hc) (hvalue ▸ limit.toNat_lt)
    rwa [hvalue, UInt64.ofNat_toNat, ← hname] at hnames

/-! ## Names among texts -/

/-- **What a text resolves to**: a kind if it is one of its names, but for blanks around it and the
case of letters. -/
theorem resolve_eq_ok_iff (raw : String) (kind : Kind) :
    resolve raw = .ok kind ↔ Names ((Text.trimChars raw.toList).map Char.toLower) kind := by
  rw [← readName?_eq_some_iff, resolve, read?]
  cases readName? ((Text.trimChars raw.toList).map Char.toLower) <;> simp

/-- A text that resolves to no kind is told as it is. -/
theorem resolve_eq_error_iff (raw : String) (failure : Failure) :
    resolve raw = .error failure ↔ failure = .unknownPrimitive raw ∧
      ∀ kind, ¬ Names ((Text.trimChars raw.toList).map Char.toLower) kind := by
  have hnone : (∀ kind, ¬ Names ((Text.trimChars raw.toList).map Char.toLower) kind) ↔
      read? raw = none := by
    rw [Option.eq_none_iff_forall_ne_some]
    exact forall_congr' fun kind => not_congr (readName?_eq_some_iff _ kind).symm
  rw [hnone, resolve]
  cases read? raw <;> simp [eq_comm]

/-- A name resolves to its kind. -/
theorem resolve_of_names {name : String} {kind : Kind} (h : Names name.toList kind) :
    resolve name = .ok kind := by
  have hplain : ∀ c ∈ name.toList, Text.isBlank c = false ∧ c.toLower = c := fun c hc => by
    simpa [isPlain] using List.all_eq_true.1 h.all_isPlain c hc
  have htrim := Text.trimChars_of_not_blank fun c hc => (hplain c hc).1
  have hlower : name.toList.map Char.toLower = name.toList :=
    (List.map_congr_left fun c hc => (hplain c hc).2).trans (List.map_id' _)
  rw [resolve_eq_ok_iff, htrim, hlower]
  exact h

/-- **The names of primitives.** A text resolves to a kind exactly if, without the blanks around it
and with small letters, it is one of the names of the kind; a text that is not resolves to the
failure that tells it as it is, and so does a run with such a text. Blanks around a text and the
case of its letters do not matter. The label of a kind is the name of its primitive and resolves to
the kind, so that the label of what a text resolves to has itself as label. -/
theorem resolve_names :
    (∀ raw kind, resolve raw = .ok kind ↔
      Names ((Text.trimChars raw.toList).map Char.toLower) kind) ∧
    (∀ raw failure, resolve raw = .error failure ↔ failure = .unknownPrimitive raw ∧
      ∀ kind, ¬ Names ((Text.trimChars raw.toList).map Char.toLower) kind) ∧
    (∀ (options : RunOptions) variableValue (machine : Machine) failure,
      resolve options.primitive = .error failure →
      machine.run (options.run variableValue) = (.error failure, machine)) ∧
    (∀ (before raw after : String) kind, (∀ c ∈ before.toList, Text.isBlank c) →
      (∀ c ∈ after.toList, Text.isBlank c) →
      (resolve (before ++ (raw ++ after)) = .ok kind ↔ resolve raw = .ok kind)) ∧
    (∀ (raw raw' : String) kind, raw.toList.map Char.toLower = raw'.toList.map Char.toLower →
      (resolve raw = .ok kind ↔ resolve raw' = .ok kind)) ∧
    (∀ kind, kind.primitive.name = kind.label ∧ resolve kind.label = .ok kind) ∧
    ∀ raw name, (resolve raw).map label = .ok name → (resolve name).map label = .ok name := by
  refine ⟨resolve_eq_ok_iff, resolve_eq_error_iff, ?_, ?_, ?_, ?_, ?_⟩
  · intro options variableValue machine failure h
    obtain ⟨rfl, hnone⟩ := (resolve_eq_error_iff _ _).1 h
    refine RunOptions.run_of_unknown_primitive (Option.eq_none_iff_forall_ne_some.2 fun kind => ?_)
    exact mt (readName?_eq_some_iff _ kind).1 (hnone kind)
  · intro before raw after kind hbefore hafter
    rw [resolve_eq_ok_iff, resolve_eq_ok_iff, String.toList_append, String.toList_append,
      Text.trimChars_append hbefore _ hafter]
  · intro raw raw' kind h
    rw [resolve_eq_ok_iff, resolve_eq_ok_iff, ← Text.trimChars_map_toLower,
      ← Text.trimChars_map_toLower, h]
  · exact fun kind => ⟨name_primitive kind, resolve_of_names (names_label kind)⟩
  · intro raw name h
    cases hraw : resolve raw with
    | error failure =>
      rw [hraw] at h
      cases h
    | ok kind =>
      rw [hraw] at h
      obtain rfl := Except.ok.inj h
      rw [resolve_of_names (names_label kind)]
      rfl

/-- The theorem on a text with blanks around it, a capital letter, a plus sign and zeros in front of
the limit, on a text without a limit, and on another name of the external routine. -/
theorem resolve_names_blanksAndCase :
    (∀ c ∈ "\t ".toList, Text.isBlank c) ∧ (∀ c ∈ "\u3000".toList, Text.isBlank c) ∧
    "Truncate:+007".toList.map Char.toLower = "truncate:+007".toList.map Char.toLower ∧
    resolve ("\t " ++ ("Truncate:+007" ++ "\u3000")) = .ok (.truncate 7) ∧
    resolve "truncate:" = .error (.unknownPrimitive "truncate:") ∧
    ({} : Machine).run (RunOptions.run { primitive := "truncate:" } none) =
      (.error (.unknownPrimitive "truncate:"), {}) ∧
    (resolve "FFI").map label = .ok "extern" ∧ (resolve "extern").map label = .ok "extern" := by
  have hbefore : ∀ c ∈ "\t ".toList, Text.isBlank c := List.all_eq_true.1 (by decide)
  have hafter : ∀ c ∈ "\u3000".toList, Text.isBlank c := List.all_eq_true.1 (by decide)
  have hcase : "Truncate:+007".toList.map Char.toLower =
      "truncate:+007".toList.map Char.toLower := by decide
  obtain ⟨hok, herror, hrun, hblanks, hletters, -, hagain⟩ := resolve_names
  have hlower : resolve "truncate:+007" = .ok (.truncate 7) := by
    rw [hok]
    exact @Names.truncate ['+'] ['0', '0', '7'] (.inr rfl) (by decide)
      (List.all_eq_true.1 (by decide)) (by decide)
  have hlimitless : resolve "truncate:" = .error (.unknownPrimitive "truncate:") := by
    rw [herror]
    refine ⟨rfl, fun kind hkind => ?_⟩
    have hnone : readName? ((Text.trimChars "truncate:".toList).map Char.toLower) = none := by
      decide
    rw [← readName?_eq_some_iff, hnone] at hkind
    cases hkind
  have hother : (resolve "FFI").map label = .ok "extern" := by
    rw [(hok "FFI" .external).2 (@Names.fixed "ffi" .external (by decide))]
    rfl
  refine ⟨hbefore, hafter, hcase, ?_, hlimitless, hrun _ _ _ _ hlimitless, hother,
    hagain _ _ hother⟩
  rw [hblanks _ _ _ _ hbefore hafter, hletters _ _ _ hcase, hlower]

end Kind

end CopyTrial
