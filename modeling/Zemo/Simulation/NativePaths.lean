import Mathlib.Tactic.Ring
import Zemo.Catalog.Rows
import Zemo.Organizer.PathSafety

set_option autoImplicit false

/-! # Paths of a plan

The simulation writes the paths of a plan as the platform does (`encodeNativePath`), and whoever
executes the plan reads them again (`resolveWithinRoot`). What is read is what was written
(`resolveWithinRoot_encode`). -/

namespace Zemo.Catalog

/-! ## Texts as paths -/

private theorem byteArray_loop (bytes : ByteArray) (i : Nat) (acc : List UInt8) :
    ByteArray.toList.loop bytes i acc = acc.reverse ++ bytes.data.toList.drop i := by
  fun_induction ByteArray.toList.loop bytes i acc with
  | case1 i acc hlt ih =>
      have hi : i < bytes.data.toList.length := hlt
      rw [ih, List.reverse_cons, List.append_assoc, List.drop_eq_getElem_cons hi]
      congr 2
      simp only [ByteArray.get!, List.singleton_append, List.cons.injEq, and_true]
      exact getElem!_pos bytes.data i hlt
  | case2 i acc hge =>
      have hlength : bytes.data.toList.length ≤ i := Nat.not_lt.1 hge
      rw [List.drop_eq_nil_of_le hlength, List.append_nil]

private theorem byteArray_toList (bytes : ByteArray) : ByteArray.mk bytes.toList.toArray = bytes := by
  have h : bytes.toList = bytes.data.toList := byteArray_loop bytes 0 []
  rw [h]

/-- A code unit survives in its two bytes. -/
theorem utf16LeUnits_bytes {units : List Nat} (h : ∀ unit ∈ units, unit < 65536) :
    utf16LeUnits (units.flatMap utf16LeBytes) = some units := by
  induction units with
  | nil => rfl
  | cons unit units ih =>
      rw [List.forall_mem_cons] at h
      have hlow : (UInt8.ofNat (unit % 256)).toNat = unit % 256 := by
        rw [UInt8.toNat_ofNat']
        omega
      have hhigh : (UInt8.ofNat (unit / 256)).toNat = unit / 256 := by
        rw [UInt8.toNat_ofNat']
        omega
      rw [List.flatMap_cons, utf16LeBytes, List.cons_append, List.cons_append, List.nil_append,
        utf16LeUnits, ih h.2, hlow, hhigh, Option.map_some]
      congr 2
      omega

theorem encodeUtf16_lt {c : Char} {unit : Nat} (h : unit ∈ encodeUtf16 c) : unit < 65536 := by
  have hvalid : c.toNat < 0xD800 ∨ 0xDFFF < c.toNat ∧ c.toNat < 0x110000 := c.valid
  unfold encodeUtf16 at h
  split at h
  · rw [List.mem_singleton] at h
    omega
  · simp only [List.mem_cons, List.not_mem_nil, or_false] at h
    omega

/-- A character survives in its code units. -/
theorem decodeUtf16_encode (c : Char) (rest : List Nat) :
    decodeUtf16 (encodeUtf16 c ++ rest) = (decodeUtf16 rest).map (c :: ·) := by
  have hvalid : c.toNat < 0xD800 ∨ 0xDFFF < c.toNat ∧ c.toNat < 0x110000 := c.valid
  unfold encodeUtf16
  split
  · rename_i hlt
    rw [List.cons_append, List.nil_append, decodeUtf16.eq_def]
    dsimp only
    rw [if_pos (by omega), Char.ofNat_toNat]
  · rename_i hge
    have hnumber : 0x10000 + (0xD800 + (c.toNat - 0x10000) / 0x400 - 0xD800) * 0x400
        + (0xDC00 + (c.toNat - 0x10000) % 0x400 - 0xDC00) = c.toNat := by omega
    rw [List.cons_append, List.cons_append, List.nil_append, decodeUtf16.eq_def]
    dsimp only
    rw [if_neg (by omega), if_pos (by omega), hnumber, Char.ofNat_toNat]

/-- A text is read from the path it was written as. -/
theorem nativeText_nativeOfText (encoding : PathEncoding) (text : List Char) :
    nativeText (nativeOfText encoding text) = some text := by
  cases encoding with
  | unixBytes =>
      have hbytes : (String.ofList text).toByteArray.IsValidUTF8 := (String.ofList text).isValidUTF8
      simp only [nativeText, nativeOfText, String.toUTF8_eq_toByteArray, byteArray_toList]
      rw [String.fromUTF8?, dif_pos hbytes, Option.map_some]
      exact congrArg some String.toList_ofList
  | windowsUtf16Le =>
      have hunits : ∀ unit ∈ text.flatMap encodeUtf16, unit < 65536 := by
        intro unit hunit
        obtain ⟨c, -, hc⟩ := List.mem_flatMap.1 hunit
        exact encodeUtf16_lt hc
      simp only [nativeText, nativeOfText, utf16LeUnits_bytes hunits, Option.bind_some]
      clear hunits
      induction text with
      | nil => rfl
      | cons c text ih => rw [List.flatMap_cons, decodeUtf16_encode, ih, Option.map_some]

end Zemo.Catalog

namespace Zemo.Simulation

open Catalog

/-! ## Writing and reading -/

/-- `components.join("\\")`. -/
def joinComponents (components : List String) : String := "\\".intercalate components

/-- `encode_native_path`. -/
def encodeNativePath (value : String) (encoding : PathEncoding) : NativePath :=
  nativeOfText encoding <|
    match encoding with
    | .unixBytes => value.toList.map fun c => if c = '\\' then '/' else c
    | .windowsUtf16Le => value.toList

inductive ResolveError where
  | invalidNativePath
  | outsideRoot
deriving DecidableEq, Repr

/-- The characters that end a component on the platform of the encoding. -/
def isSeparator (encoding : PathEncoding) (c : Char) : Bool :=
  match encoding with
  | .unixBytes => c = '/'
  | .windowsUtf16Le => c = '/' || c = '\\'

/-- `resolve_within_root`: the components of a path, when all of them are names. `Path::components`
    leaves out what is empty and every dot but a first one. -/
def resolveWithinRoot (path : NativePath) : Except ResolveError (List String) :=
  match nativeText path with
  | none => .error .invalidNativePath
  | some text =>
      let pieces := text.splitOnP (isSeparator path.encoding)
      let rooted := text.head?.any (isSeparator path.encoding)
        || (path.encoding = .windowsUtf16Le && hasDrivePrefix text)
      if rooted ∨ pieces.head? = some ['.'] ∨ ['.', '.'] ∈ pieces then .error .outsideRoot
      else .ok ((pieces.filter fun piece => piece ≠ [] && piece ≠ ['.']).map String.ofList)

/-- A name that is read as it was written. -/
structure PlainName (name : String) : Prop where
  nonempty : name ≠ ""
  dot : name ≠ "."
  dots : name ≠ ".."
  slash : '/' ∉ name.toList
  backslash : '\\' ∉ name.toList
  colon : ':' ∉ name.toList

/-- Pieces without separators are found again between separators. -/
theorem splitOnP_intercalate {α : Type} {p : α → Bool} {x : α} (hx : p x) {pieces : List (List α)}
    (hpieces : ∀ piece ∈ pieces, ∀ c ∈ piece, p c = false) (hne : pieces ≠ []) :
    ([x].intercalate pieces).splitOnP p = pieces := by
  induction pieces with
  | nil => exact absurd rfl hne
  | cons piece pieces ih =>
      rw [List.forall_mem_cons] at hpieces
      cases pieces with
      | nil => rw [List.intercalate_singleton, List.splitOnP_eq_singleton hpieces.1]
      | cons next pieces =>
          rw [List.intercalate_cons_cons, List.append_assoc, List.singleton_append,
            List.splitOnP_append_cons_of_forall_mem hpieces.1 _ hx,
            ih hpieces.2 (List.cons_ne_nil _ _)]

private theorem map_intercalate {α β : Type} (f : α → β) (x : α) (pieces : List (List α)) :
    ([x].intercalate pieces).map f = [f x].intercalate (pieces.map (List.map f)) := by
  induction pieces with
  | nil => rfl
  | cons piece pieces ih =>
      cases pieces with
      | nil => simp only [List.intercalate_singleton, List.map_cons, List.map_nil]
      | cons next pieces =>
          rw [List.intercalate_cons_cons, List.map_append, List.map_append, ih,
            show (piece :: next :: pieces).map (List.map f)
              = piece.map f :: next.map f :: pieces.map (List.map f) from rfl,
            List.intercalate_cons_cons]
          rfl

/-- What the path of some names is read from. -/
private theorem nativeText_encode {names : List String} (hnames : ∀ name ∈ names, PlainName name)
    (encoding : PathEncoding) :
    ∃ separator, isSeparator encoding separator = true
      ∧ nativeText (encodeNativePath (joinComponents names) encoding)
        = some ([separator].intercalate (names.map String.toList)) := by
  simp only [encodeNativePath, joinComponents, nativeText_nativeOfText, String.toList_intercalate]
  cases encoding with
  | unixBytes =>
      refine ⟨'/', rfl, congrArg some ?_⟩
      simp only [show "\\".toList = ['\\'] from rfl]
      rw [map_intercalate, if_pos rfl, List.map_map]
      congr 1
      refine List.map_congr_left fun name hname => ?_
      -- the names themselves have no backslash to replace
      refine (List.map_congr_left fun c hc => ?_).trans (List.map_id _)
      exact if_neg fun heq : c = '\\' => (hnames name hname).backslash (heq ▸ hc)
  | windowsUtf16Le => exact ⟨'\\', rfl, rfl⟩

private theorem PlainName.separatorless {name : String} (h : PlainName name)
    (encoding : PathEncoding) {c : Char} (hc : c ∈ name.toList) :
    isSeparator encoding c = false := by
  have hslash : c ≠ '/' := fun heq => h.slash (heq ▸ hc)
  have hbackslash : c ≠ '\\' := fun heq => h.backslash (heq ▸ hc)
  cases encoding <;> simp [isSeparator, hslash, hbackslash]

private theorem PlainName.toList_ne {name other : String} (h : name ≠ other) :
    name.toList ≠ other.toList := fun heq => h (String.toList_inj.1 heq)

/-- **What is read is what was written**: a path of names is resolved to these names. -/
theorem resolveWithinRoot_encode {names : List String} (hnames : ∀ name ∈ names, PlainName name)
    (hne : names ≠ []) (encoding : PathEncoding) :
    resolveWithinRoot (encodeNativePath (joinComponents names) encoding) = .ok names := by
  obtain ⟨separator, hseparator, htext⟩ := nativeText_encode hnames encoding
  have hencoding : (encodeNativePath (joinComponents names) encoding).encoding = encoding := by
    cases encoding <;> rfl
  have hpieces : ([separator].intercalate (names.map String.toList)).splitOnP (isSeparator encoding)
      = names.map String.toList := by
    refine splitOnP_intercalate hseparator (fun piece hpiece c hc => ?_) (by simpa using hne)
    obtain ⟨name, hname, rfl⟩ := List.mem_map.1 hpiece
    exact (hnames name hname).separatorless encoding hc
  obtain ⟨first, rest, rfl⟩ := List.exists_cons_of_ne_nil hne
  have hfirst := hnames first (List.mem_cons_self ..)
  obtain ⟨c, cs, hc⟩ := List.exists_cons_of_ne_nil (PlainName.toList_ne hfirst.nonempty)
  obtain ⟨tail, htail, hnext⟩ : ∃ tail, [separator].intercalate
      ((first :: rest).map String.toList) = first.toList ++ tail ∧ ':' ∉ tail.head? := by
    cases rest with
    | nil => exact ⟨[], by simp, nofun⟩
    | cons next rest =>
        refine ⟨[separator] ++ [separator].intercalate ((next :: rest).map String.toList), ?_, ?_⟩
        · rw [List.map_cons, List.map_cons, List.intercalate_cons_cons, List.append_assoc]
        -- a colon is not a separator
        · intro heq
          obtain rfl : separator = ':' := Option.some.inj heq
          cases encoding <;> exact nomatch hseparator
  have hhead : ([separator].intercalate ((first :: rest).map String.toList)).head? = some c := by
    rw [htail, hc]
    rfl
  have hdrive : hasDrivePrefix ([separator].intercalate ((first :: rest).map String.toList))
      = false := by
    rw [htail, hc]
    cases cs with
    | nil =>
        cases tail with
        | nil => rfl
        | cons x tail =>
            have hx : x ≠ ':' := fun heq => hnext (heq ▸ rfl)
            simp [hasDrivePrefix, hx]
    | cons x cs =>
        have hx : x ≠ ':' := by
          rintro rfl
          exact hfirst.colon (hc ▸ List.mem_cons_of_mem _ (List.mem_cons_self ..))
        simp [hasDrivePrefix, hx]
  have hnotRooted : isSeparator encoding c = false :=
    hfirst.separatorless encoding (hc ▸ List.mem_cons_self ..)
  have hdots : ['.', '.'] ∉ (first :: rest).map String.toList := by
    intro hmem
    obtain ⟨name, hname, heq⟩ := List.mem_map.1 hmem
    exact PlainName.toList_ne (hnames name hname).dots heq
  have hkept : (((first :: rest).map String.toList).filter
      fun piece => piece ≠ [] && piece ≠ ['.']) = (first :: rest).map String.toList := by
    refine List.filter_eq_self.2 fun piece hpiece => ?_
    obtain ⟨name, hname, rfl⟩ := List.mem_map.1 hpiece
    have h1 : name.toList ≠ [] := PlainName.toList_ne (hnames name hname).nonempty
    have h2 : name.toList ≠ ['.'] := PlainName.toList_ne (hnames name hname).dot
    simp [h1, h2]
  have hdot : ((first :: rest).map String.toList).head? ≠ some ['.'] := fun heq =>
    PlainName.toList_ne hfirst.dot (Option.some.inj heq)
  simp only [resolveWithinRoot, htext, hencoding, hpieces, hhead, hdrive, Option.any_some,
    hnotRooted, hdot, hdots, hkept, Bool.and_false, Bool.or_self, Bool.false_eq_true, or_self,
    if_false]
  rw [List.map_map]
  refine congrArg Except.ok ((List.map_congr_left fun name _ => ?_).trans (List.map_id _))
  exact String.ofList_toList

end Zemo.Simulation
