import Inspection.Proofs.Text.Pieces
import Inspection.Proofs.Url.Percent
import Inspection.Url.Basic
import Mathlib.Data.Bool.AllAny
import Mathlib.Data.List.TakeWhile

/-!
# Url — addresses of servers

A server has an address of a host and a port, the host being an IPv4 address in its usual form or a
name in small letters.  Such an address is read as it stands: the host of the URL is written as it
was, and so is the port, but for the default one, which is left out.

* `IsServerHost.read`: the host of a server is read, and written as it was.
* `read_server`: what an address and a path are read as.
-/

namespace Inspection.Url

/-- The characters of names in small letters. -/
def IsHostChar (c : Char) : Prop := c.isLower = true ∨ c.isDigit = true ∨ c ∈ ['-', '.', '_']

instance : DecidablePred IsHostChar := fun _ => inferInstanceAs (Decidable (_ ∨ _))

/-- The name of a host in small letters. -/
structure IsHostName (name : List Char) : Prop where
  nonempty : name ≠ []
  chars : ∀ c ∈ name, IsHostChar c
  /-- A name whose last label is a number would be an IPv4 address. -/
  notNumeric : Ipv4.endsInNumber name = false
  /-- Labels that are written in Punycode denote some. -/
  punycode : ∀ label ∈ Text.split '.' name, ['x', 'n', '-', '-'] <+: label →
    (Domain.label? label).isSome = true

/-- Four bytes in decimal. -/
def Ipv4.fields (a b c d : UInt8) : List (List Char) :=
  [a, b, c, d].map fun byte => Nat.toDigits 10 byte.toNat

/-- Four bytes in decimal, with points between them. -/
def Ipv4.dotted (a b c d : UInt8) : List Char := Text.join ['.'] (fields a b c d)

/-- The hosts that servers are known by. -/
inductive IsServerHost : List Char → Prop
  | name {cs : List Char} (h : IsHostName cs) : IsServerHost cs
  | ipv4 (a b c d : UInt8) : IsServerHost (Ipv4.dotted a b c d)

/-! ### Characters -/

theorem toNat_of_isHostChar {c : Char} (h : IsHostChar c) :
    97 ≤ c.toNat ∧ c.toNat ≤ 122 ∨ 48 ≤ c.toNat ∧ c.toNat ≤ 57 ∨ c.toNat = 45 ∨ c.toNat = 46 ∨
      c.toNat = 95 := by
  rcases h with h | h | h
  · obtain ⟨hlow, hhigh⟩ := (Bool.and_eq_true ..).mp h
    exact .inl ⟨UInt32.le_iff_toNat_le.mp (of_decide_eq_true hlow),
      UInt32.le_iff_toNat_le.mp (of_decide_eq_true hhigh)⟩
  · obtain ⟨hlow, hhigh⟩ := (Bool.and_eq_true ..).mp h
    exact .inr (.inl ⟨UInt32.le_iff_toNat_le.mp (of_decide_eq_true hlow),
      UInt32.le_iff_toNat_le.mp (of_decide_eq_true hhigh)⟩)
  · simp only [List.mem_cons, List.not_mem_nil, or_false] at h
    rcases h with rfl | rfl | rfl <;> decide

/-- A name has none of the characters that mean something else. -/
theorem ne_of_isHostChar {c d : Char} (h : IsHostChar c) (hd : ¬IsHostChar d) : c ≠ d := by
  rintro rfl
  exact hd h

theorem mapped_of_isHostChar {c : Char} (h : IsHostChar c) : Domain.mapped c = [c] := by
  have hn := toNat_of_isHostChar h
  have hsmall : Domain.small c.toNat = c.toNat := by
    rw [Domain.small, if_neg (by omega), if_neg (by omega), if_neg (by omega), if_neg (by omega),
      if_neg (by omega)]
  simp only [Domain.mapped]
  rw [if_neg (by omega), if_neg (by omega), if_neg (by omega), if_neg (by omega), hsmall,
    Char.ofNat_toNat]

theorem isForbidden_of_isHostChar {c : Char} (h : IsHostChar c) :
    Domain.isForbidden c = false := by
  have hn := toNat_of_isHostChar h
  have hlow : ¬c.toNat ≤ 0x20 := by omega
  have hhigh : ¬c.toNat = 0x7F := by omega
  have hlist : c ∉ ['%', '#', '/', ':', '<', '>', '?', '@', '[', '\\', ']', '^', '|'] := by
    intro hm
    have hnone : ∀ d ∈ ['%', '#', '/', ':', '<', '>', '?', '@', '[', '\\', ']', '^', '|'],
      ¬IsHostChar d := List.all_iff_forall_prop.mp (by decide)
    exact hnone c hm h
  simp [Domain.isForbidden, hlow, hhigh] at hlist ⊢
  exact hlist

/-! ### Names -/

theorem mapM_eq_some_self {α : Type} {f : α → Option α} :
    ∀ {xs : List α}, (∀ x ∈ xs, f x = some x) → xs.mapM f = some xs
  | [], _ => rfl
  | x :: xs, h => by
    rw [List.mapM_cons, h x List.mem_cons_self,
      mapM_eq_some_self fun y hy => h y (List.mem_cons_of_mem _ hy)]
    rfl

section

variable {cs : List Char} (hchars : ∀ c ∈ cs, IsHostChar c)
include hchars

theorem label?_eq_some
    (hpunycode : ['x', 'n', '-', '-'] <+: cs → (Domain.label? cs).isSome = true) :
    Domain.label? cs = some cs := by
  unfold Domain.label? at hpunycode ⊢
  split
  next written =>
    have hsome := hpunycode ⟨written, rfl⟩
    simp only at hsome
    cases hd : Punycode.decode? written with
    | none =>
      rw [hd] at hsome
      cases hsome
    | some decoded =>
      rw [hd, Option.bind_some] at hsome
      exact if_pos (Option.isSome_ite.mp hsome)
  · have hascii : cs.all (·.toNat < 0x80) = true := by
      refine List.all_eq_true.mpr fun c hc => decide_eq_true ?_
      have hn := toNat_of_isHostChar (hchars c hc)
      omega
    have hallowed : cs.any Domain.isForbidden = false :=
      List.any_eq_false.mpr fun c hc => by simp [isForbidden_of_isHostChar (hchars c hc)]
    rw [if_pos hascii, hallowed]
    rfl

variable (hpunycode : ∀ label ∈ Text.split '.' cs, ['x', 'n', '-', '-'] <+: label →
  (Domain.label? label).isSome = true)
include hpunycode

/-- A name in small letters is sent as it is. -/
theorem toAscii?_eq_some : Domain.toAscii? cs = some cs := by
  have hmapped : cs.flatMap Domain.mapped = cs := by
    rw [List.flatMap_def, List.map_congr_left fun c hc => mapped_of_isHostChar (hchars c hc),
      ← List.flatMap_def]
    exact List.flatMap_singleton' cs
  have hlabels : (Text.split '.' cs).mapM Domain.label? = some (Text.split '.' cs) :=
    mapM_eq_some_self fun label hl =>
      label?_eq_some (fun c hc => hchars c (Text.mem_of_mem_split hl hc).1) (hpunycode label hl)
  rw [Domain.toAscii?, hmapped, hlabels, Option.map_some, Text.join_split]

theorem Host.read_eq (hne : cs ≠ []) : Host.read cs =
    if Ipv4.endsInNumber cs then
      match Ipv4.read? cs with
      | some address => .ok (.ipv4 address)
      | none => .error .invalidIpv4
    else .ok (.domain cs) := by
  have hpercent : '%' ∉ cs := fun h => absurd (hchars _ h) (by decide)
  have hbytes : (Text.decodeLossy (decode cs)).toList = cs := by
    rw [decode_of_notMem hpercent, Text.decodeLossy_encode, String.toList_ofList]
  unfold Host.read
  split
  · exact absurd rfl hne
  next inner => exact absurd (hchars '[' List.mem_cons_self) (by decide)
  · rw [hbytes, toAscii?_eq_some hchars hpunycode]
    cases cs with
    | nil => exact absurd rfl hne
    | cons c rest => rfl

end

/-! ### IPv4 addresses -/

namespace Ipv4

/-- A byte is written in digits and read back from them. -/
theorem number?_toDigits :
    ∀ n : Nat, n < 256 → number? (Nat.toDigits 10 n) = some n := by decide +kernel

theorem isDigit_of_mem {byte : UInt8} {c : Char} (h : c ∈ Nat.toDigits 10 byte.toNat) :
    c.isDigit = true := Nat.isDigit_of_mem_toDigits (by decide) (by decide) h

section

variable (a b c d : UInt8)

theorem split_dotted : Text.split '.' (dotted a b c d) = fields a b c d := by
  refine Text.split_join (by simp [fields]) fun piece hp hdot => ?_
  obtain ⟨byte, -, rfl⟩ := List.mem_map.mp hp
  exact absurd (isDigit_of_mem hdot) (by decide)

theorem isHostChar_of_mem_dotted {x : Char} (h : x ∈ dotted a b c d) : IsHostChar x := by
  have hdigit : ∀ byte : UInt8, x ∈ Nat.toDigits 10 byte.toNat → IsHostChar x :=
    fun _ hx => .inr (.inl (isDigit_of_mem hx))
  simp only [dotted, fields, List.map_cons, List.map_nil, Text.join, List.mem_append,
    List.mem_singleton] at h
  rcases h with (hx | rfl) | (hx | rfl) | (hx | rfl) | hx
  · exact hdigit _ hx
  · decide
  · exact hdigit _ hx
  · decide
  · exact hdigit _ hx
  · decide
  · exact hdigit _ hx

theorem dotted_ne_nil : dotted a b c d ≠ [] := by
  intro h
  have hs := split_dotted a b c d
  rw [h] at hs
  exact absurd (congrArg List.length hs) (by decide : 1 ≠ 4)

/-- No field is written in Punycode. -/
theorem not_punycode_of_mem_fields {label : List Char} (h : label ∈ fields a b c d) :
    ¬['x', 'n', '-', '-'] <+: label := by
  rintro ⟨written, rfl⟩
  obtain ⟨byte, -, hb⟩ := List.mem_map.mp h
  have hx : 'x' ∈ Nat.toDigits 10 byte.toNat := by rw [hb]; exact List.mem_cons_self
  exact absurd (isDigit_of_mem hx) (by decide)

theorem endsInNumber_dotted : endsInNumber (dotted a b c d) = true := by
  obtain ⟨x, rest, hd⟩ := List.exists_cons_of_ne_nil (Nat.toDigits_ne_nil (n := d.toNat) (b := 10))
  have hall : (x :: rest).all Char.isDigit = true :=
    List.all_eq_true.mpr fun y hy => isDigit_of_mem (hd ▸ hy)
  rw [endsInNumber, split_dotted, fields]
  simp only [List.map_cons, List.map_nil, List.reverse_cons, List.reverse_nil, List.nil_append,
    List.cons_append, hd, hall]
  rfl

/-- No field is empty, so there is none that does not count. -/
theorem parts_dotted : parts (dotted a b c d) = fields a b c d := by
  obtain ⟨x, rest, hd⟩ := List.exists_cons_of_ne_nil (Nat.toDigits_ne_nil (n := d.toNat) (b := 10))
  rw [parts, split_dotted, fields]
  simp only [List.map_cons, List.map_nil, List.reverse_cons, List.reverse_nil, List.nil_append,
    List.cons_append, hd]

theorem mapM_number?_fields :
    (fields a b c d).mapM number? = some [a.toNat, b.toNat, c.toNat, d.toNat] := by
  have hnumber : ∀ byte : UInt8, number? (Nat.toDigits 10 byte.toNat) = some byte.toNat :=
    fun byte => number?_toDigits _ byte.toNat_lt
  simp only [fields, List.map_cons, List.map_nil, List.mapM_cons, List.mapM_nil, hnumber]
  rfl

/-- The number of four bytes. -/
def ofBytes : Nat := d.toNat + ((a.toNat * 256 + b.toNat) * 256 + c.toNat) * 256

theorem combine?_bytes :
    combine? [a.toNat, b.toNat, c.toNat, d.toNat] = some (ofBytes a b c d) := by
  have ha := UInt8.toNat_lt a
  have hb := UInt8.toNat_lt b
  have hc := UInt8.toNat_lt c
  have hd := UInt8.toNat_lt d
  have hfront : [c.toNat, b.toNat, a.toNat].all (· ≤ 255) = true := by
    simp only [List.all_cons, List.all_nil, Bool.and_true, Bool.and_eq_true, decide_eq_true_eq]
    omega
  have htwo : Arithmetic.twoTo (32 - 8 * 3) = 256 := by decide
  simp only [combine?, List.reverse_cons, List.reverse_nil, List.nil_append, List.cons_append,
    List.length_cons, List.length_nil, Nat.zero_add, Nat.reduceAdd, htwo, List.foldl_cons,
    List.foldl_nil, Nat.zero_mul]
  exact if_pos ⟨hd, hfront⟩

theorem read?_dotted : read? (dotted a b c d) = some (ofBytes a b c d) := by
  have ha := UInt8.toNat_lt a
  have hb := UInt8.toNat_lt b
  have hc := UInt8.toNat_lt c
  have hd := UInt8.toNat_lt d
  have hsmall : [a.toNat, b.toNat, c.toNat, d.toNat].any (· ≥ UInt32.size) = false := by
    simp only [List.any_cons, List.any_nil, Bool.or_false, Bool.or_eq_false_iff,
      decide_eq_false_iff_not, UInt32.size]
    omega
  have hlength : ¬(fields a b c d).length > 4 := by simp [fields]
  simp only [read?, parts_dotted, if_neg hlength, mapM_number?_fields, Option.bind_eq_bind,
    Option.bind_some, hsmall]
  exact combine?_bytes a b c d

theorem render_ofBytes : render (ofBytes a b c d) = dotted a b c d := by
  have ha := UInt8.toNat_lt a
  have hb := UInt8.toNat_lt b
  have hc := UInt8.toNat_lt c
  have hd := UInt8.toNat_lt d
  have hfirst : ofBytes a b c d / 16777216 % 256 = a.toNat := by unfold ofBytes; omega
  have hsecond : ofBytes a b c d / 65536 % 256 = b.toNat := by unfold ofBytes; omega
  have hthird : ofBytes a b c d / 256 % 256 = c.toNat := by unfold ofBytes; omega
  have hfourth : ofBytes a b c d / 1 % 256 = d.toNat := by unfold ofBytes; omega
  simp only [render, dotted, fields, List.map_cons, List.map_nil, hfirst, hsecond, hthird, hfourth]

end

end Ipv4

/-! ### Servers -/

namespace IsServerHost

variable {cs : List Char}

theorem ne_nil (h : IsServerHost cs) : cs ≠ [] := by
  cases h with
  | name h => exact h.nonempty
  | ipv4 a b c d => exact Ipv4.dotted_ne_nil a b c d

theorem isHostChar (h : IsServerHost cs) {c : Char} (hc : c ∈ cs) : IsHostChar c := by
  cases h with
  | name h => exact h.chars c hc
  | ipv4 a b c d => exact Ipv4.isHostChar_of_mem_dotted a b c d hc

/-- The host of a server is read, and written as it was. -/
theorem read (h : IsServerHost cs) : ∃ host, Host.read cs = .ok host ∧ host.render = cs := by
  cases h with
  | name h =>
    refine ⟨.domain cs, ?_, rfl⟩
    rw [Host.read_eq h.chars h.punycode h.nonempty, h.notNumeric]
    rfl
  | ipv4 a b c d =>
    refine ⟨.ipv4 (Ipv4.ofBytes a b c d), ?_, Ipv4.render_ofBytes a b c d⟩
    rw [Host.read_eq (fun _ => Ipv4.isHostChar_of_mem_dotted a b c d)
        (fun label hl hp => absurd hp
          (Ipv4.not_punycode_of_mem_fields a b c d (Ipv4.split_dotted a b c d ▸ hl)))
        (Ipv4.dotted_ne_nil a b c d),
      Ipv4.endsInNumber_dotted, Ipv4.read?_dotted]
    rfl

end IsServerHost

example : IsServerHost "db-0.tidb_cluster".toList :=
  .name ⟨by decide, List.all_iff_forall_prop.mp (by decide), by decide, by decide⟩

/-- The URL of a path at a server. -/
def ofServer (host : Host) (port : Nat) (path : List (List Char)) : Url where
  credentials := []
  host := host
  port := if port = 80 then none else some port
  path := path
  query := none
  fragment := none

@[simp] theorem path_ofServer (host : Host) (port : Nat) (path : List (List Char)) :
    (ofServer host port path).path = path := rfl

theorem render_ofServer (host : Host) (port : Nat) (path : List (List Char)) :
    (ofServer host port path).render =
      String.ofList ("http://".toList ++ host.render ++
        (if port = 80 then [] else ':' :: Nat.toDigits 10 port) ++ path.flatMap ('/' :: ·)) := by
  by_cases hdefault : port = 80
  · simp [render, ofServer, hdefault]
  · simp [render, ofServer, hdefault]

/-- The port of a server is read as it stands. -/
theorem readPort_toDigits {port : Nat} (h : port < 65536) :
    readPort (':' :: Nat.toDigits 10 port) = .ok (if port = 80 then none else some port) := by
  have hdigits : (Nat.toDigits 10 port).all Char.isDigit = true :=
    List.all_eq_true.mpr fun c hc => Nat.isDigit_of_mem_toDigits (by decide) (by decide) hc
  have hvalue : Text.valueOf? (Nat.toDigits 10 port) = some port := by
    rw [← Text.toList_natural, Text.valueOf?_natural]
  have hempty : (Nat.toDigits 10 port).isEmpty = false :=
    List.isEmpty_eq_false_iff.mpr (Text.toDigits_ne_nil port)
  simp only [readPort, hempty, hdigits, hvalue, Option.getD_some]
  rw [if_neg (by simp), if_neg (by simp), if_neg (by omega)]
  split <;> rfl

theorem isIgnored_of_lt {c : Char} (h : 0x20 < c.toNat) : isIgnored c = false := by
  have hne : ∀ d : Char, d.toNat ≤ 0x20 → c ≠ d := by
    rintro d hd rfl
    omega
  simp [isIgnored, hne '\t' (by decide), hne '\n' (by decide), hne '\r' (by decide)]

/-- Nothing is left out of a text that can be seen. -/
theorem filter_visible {cs : List Char} (h : ∀ c ∈ cs, 0x20 < c.toNat) :
    (cs.reverse.dropWhile (·.toNat ≤ 0x20)).reverse.filter (!isIgnored ·) = cs := by
  have hend : cs.reverse.dropWhile (·.toNat ≤ 0x20) = cs.reverse := by
    refine List.dropWhile_eq_self_iff.mpr fun hl hle => ?_
    have hlast := h _ (List.mem_reverse.mp (List.getElem_mem hl))
    exact absurd (of_decide_eq_true hle) (Nat.not_le.mpr hlast)
  rw [hend, List.reverse_reverse, List.filter_eq_self]
  exact fun c hc => by simp [isIgnored_of_lt (h c hc)]

/-- The text of a host ends at its port. -/
theorem splitHost_append {host : List Char} (h : ∀ c ∈ host, IsHostChar c) (rest : List Char) :
    splitHost false (host ++ ':' :: rest) = (host, ':' :: rest) := by
  induction host with
  | nil => rfl
  | cons c host ih =>
    have hc := h c List.mem_cons_self
    have hcolon : c ≠ ':' := ne_of_isHostChar hc (by decide)
    have hopen : c ≠ '[' := ne_of_isHostChar hc (by decide)
    have hclose : c ≠ ']' := ne_of_isHostChar hc (by decide)
    have hrest := ih fun d hd => h d (List.mem_cons_of_mem c hd)
    simp only [List.cons_append, splitHost, hcolon, hopen, hclose, false_and, if_false, hrest]

/-- The text of a host and a port. -/
def authority (host : List Char) (port : Nat) : List Char := host ++ ':' :: Nat.toDigits 10 port

section

variable {host : List Char} (hhost : IsServerHost host)
include hhost

/-- An address has no character that means something else in a URL. -/
theorem isPlain_of_mem_authority {port : Nat} {c : Char} (h : c ∈ authority host port) :
    0x20 < c.toNat ∧ endsAuthority c = false ∧ c ≠ '@' := by
  have hplain : IsHostChar c → 0x20 < c.toNat ∧ endsAuthority c = false ∧ c ≠ '@' := by
    intro hc
    have hn := toNat_of_isHostChar hc
    refine ⟨by omega, ?_, ne_of_isHostChar hc (by decide)⟩
    simp [endsAuthority, ne_of_isHostChar (d := '/') hc (by decide),
      ne_of_isHostChar (d := '\\') hc (by decide), ne_of_isHostChar (d := '?') hc (by decide),
      ne_of_isHostChar (d := '#') hc (by decide)]
  rcases List.mem_append.mp h with hc | hc
  · exact hplain (hhost.isHostChar hc)
  · rcases List.mem_cons.mp hc with rfl | hc
    · decide
    · exact hplain (.inr (.inl (Nat.isDigit_of_mem_toDigits (by decide) (by decide) hc)))

theorem readAuthority_eq {port : Nat} (hport : port < 65536) {found : Host}
    (hfound : Host.read host = .ok found) :
    readAuthority (authority host port) =
      .ok ([], found, if port = 80 then none else some port) := by
  have hbehind : (((authority host port).reverse.takeWhile (· ≠ '@')).reverse) =
      authority host port := by
    rw [List.takeWhile_eq_self_iff.mpr, List.reverse_reverse]
    intro c hc
    exact decide_eq_true (isPlain_of_mem_authority hhost (List.mem_reverse.mp hc)).2.2
  simp only [readAuthority, hbehind, Nat.sub_self, List.take_zero, List.dropLast_nil]
  rw [authority, splitHost_append fun _ => hhost.isHostChar]
  simp only [hfound, readPort_toDigits hport]
  rfl

/-- The slashes before an address are skipped. -/
theorem dropWhile_slashes (port : Nat) (rest : List Char) :
    ('/' :: '/' :: (authority host port ++ rest)).dropWhile (fun c => c = '/' || c = '\\') =
      authority host port ++ rest := by
  obtain ⟨c, more, rfl⟩ := List.exists_cons_of_ne_nil hhost.ne_nil
  have hc := hhost.isHostChar List.mem_cons_self
  have hslash : c ≠ '/' := ne_of_isHostChar hc (by decide)
  have hback : c ≠ '\\' := ne_of_isHostChar hc (by decide)
  simp [authority, hslash, hback]

/-- **The address of a server is read as it stands.** -/
theorem read_server {found : Host} (hfound : Host.read host = .ok found) {port : Nat}
    (hport : port < 65536) {path : List Char}
    (hpath : ∀ c ∈ path, 0x20 < c.toNat ∧ c ≠ '?' ∧ c ≠ '#') :
    read (String.ofList ('/' :: '/' :: (authority host port ++ '/' :: path))) =
      .ok (ofServer found port (readPath ('/' :: path))) := by
  have hplain : ∀ c ∈ authority host port, 0x20 < c.toNat ∧ endsAuthority c = false ∧ c ≠ '@' :=
    fun _ => isPlain_of_mem_authority hhost
  have hvisible : ∀ c ∈ '/' :: '/' :: (authority host port ++ '/' :: path), 0x20 < c.toNat := by
    simp only [List.forall_mem_cons, List.forall_mem_append]
    exact ⟨by decide, by decide, fun c hc => (hplain c hc).1, by decide,
      fun c hc => (hpath c hc).1⟩
  -- The address ends at the slash behind it.
  have hinside : ∀ c ∈ authority host port, (!endsAuthority c) = true :=
    fun c hc => by simp [(hplain c hc).2.1]
  have htake : (authority host port ++ '/' :: path).takeWhile (!endsAuthority ·) =
      authority host port := by
    rw [List.takeWhile_append_of_pos hinside, List.takeWhile_cons_of_neg (by decide),
      List.append_nil]
  have hdrop : (authority host port ++ '/' :: path).dropWhile (!endsAuthority ·) =
      '/' :: path := by
    rw [List.dropWhile_append_of_pos hinside, List.dropWhile_cons_of_neg (by decide)]
  -- The rest is all path.
  have hwhole : ∀ c ∈ '/' :: path, (c ≠ '?' && c ≠ '#') = true := by
    refine List.forall_mem_cons.mpr ⟨by decide, fun c hc => ?_⟩
    simp [(hpath c hc).2.1, (hpath c hc).2.2]
  have hnone : readTail [] = (none, none) := rfl
  simp only [read, String.toList_ofList, filter_visible hvisible, dropWhile_slashes hhost, htake,
    hdrop, readAuthority_eq hhost hport hfound, List.takeWhile_eq_self_iff.mpr hwhole,
    List.dropWhile_eq_nil_iff.mpr hwhole, hnone]
  rfl

end

end Inspection.Url
