import TemplateBindings.Build.Marker
import TemplateBindings.Proofs.Text.Lines
import TemplateBindings.Proofs.Text.Utf8

/-!
# Reading markers back

A build recognises its own modules: the marker in the bytes of a module is the one that it was
assembled with (`TemplateBindings.Build.markerIn?_assemble`), however its bytes fall into blocks.
The other outputs carry none (`TemplateBindings.Build.unmarked_classModule`), so that none of them
is taken for a current module. Nor does anything that comes behind a first line make it another one
(`TemplateBindings.Build.firstLine?_append`).
-/

namespace TemplateBindings

namespace Build

open Files Text

variable {line rest marker : Text} {bytes : List UInt8} {size : Nat}

/-! ### Reading in blocks -/

/-- What is left of a text when half a line end at its end is left for later. -/
def settled (s : Text) : Text := if s.getLast? = some '\r' then s.dropLast else s

theorem settled_append (hr : '\r' ∉ line) (rest : Text) :
    ∃ rest', settled (line ++ rest) = line ++ rest' := by
  rw [settled]
  split
  · next hlast =>
    rcases List.eq_nil_or_concat rest with rfl | ⟨rest, c, rfl⟩
    · rw [List.append_nil] at hlast
      exact absurd (List.mem_of_getLast? hlast) hr
    · rw [List.concat_eq_append, ← List.append_assoc, List.dropLast_concat]
      exact ⟨rest, rfl⟩
  · exact ⟨rest, rfl⟩

theorem settled_of_not_mem (hr : '\r' ∉ line) : settled line = line := by
  rw [settled, if_neg]
  intro hlast
  exact hr (List.mem_of_getLast? hlast)

theorem settledText?_take (s : Text) (size : Nat) :
    ∃ part, settledText? ((Utf8.encode s).take size) = some (settled part) ∧ part <+: s ∧
      (∀ front, front <+: s → (Utf8.encode front).length ≤ size → front <+: part) := by
  obtain ⟨part, hpart, hpre, hmax⟩ := Utf8.decodeSoFar?_take s size
  exact ⟨part, by rw [settledText?, hpart]; rfl, hpre, hmax⟩

/-- A part of a text has its first line whole, or is a part of the first line. -/
theorem settled_of_prefix {part : Text} (hr : '\r' ∉ line) (h : part <+: line ++ '\n' :: rest) :
    (∃ rest', settled part = line ++ '\n' :: rest') ∨ settled part = part ∧ part <+: line := by
  have hr' : '\r' ∉ line ++ ['\n'] := by simpa using hr
  have hwhole (rest' : Text) :
      ∃ rest'', settled (line ++ ['\n'] ++ rest') = line ++ '\n' :: rest'' := by
    obtain ⟨rest'', he⟩ := settled_append hr' rest'
    exact ⟨rest'', by rw [he]; simp⟩
  have hline : line ++ ['\n'] <+: line ++ '\n' :: rest := ⟨rest, by simp⟩
  rcases List.prefix_or_prefix_of_prefix h hline with hp | ⟨rest', rfl⟩
  · rcases List.prefix_concat_iff.1 hp with rfl | hp
    · have he := hwhole []
      rw [List.append_nil] at he
      exact .inl he
    · exact .inr ⟨settled_of_not_mem fun hm => hr (hp.subset hm), hp⟩
  · exact .inl (hwhole rest')

/-- **The first line of a text with line ends of its own kind** is found, however many bytes are
read at a time. -/
theorem firstLine?_encode (hn : '\n' ∉ line) (hr : '\r' ∉ line) (rest : Text) (size : Nat) :
    firstLine? (Utf8.encode (line ++ '\n' :: rest)) size = some (line ++ ['\n']) := by
  have hwhole : firstLine (unifyLineEnds (line ++ '\n' :: rest)) = (line, true) := by
    rw [unifyLineEnds_append hr, unifyLineEnds_cons (by decide), firstLine_append hn]
  generalize hbytes : Utf8.encode (line ++ '\n' :: rest) = bytes
  have hdecode : Utf8.decode? bytes = some (line ++ '\n' :: rest) := by
    rw [← hbytes, Utf8.decode?, Utf8.decode_encode]
    rfl
  fun_induction firstLine? bytes size with
  | case1 size h =>
    obtain ⟨part, hpart, -⟩ := settledText?_take (line ++ '\n' :: rest) size
    rw [hbytes, h] at hpart
    cases hpart
  | case2 size s h found hfound =>
    obtain ⟨part, hpart, hpre, -⟩ := settledText?_take (line ++ '\n' :: rest) size
    rw [hbytes, h] at hpart
    cases hpart
    rcases settled_of_prefix hr hpre with ⟨rest', he⟩ | ⟨he, hline⟩
    · rw [he, unifyLineEnds_append hr, unifyLineEnds_cons (by decide), firstLine_append hn]
        at hfound
      cases hfound
      rfl
    · have hr' : '\r' ∉ part := fun hm => hr (hline.subset hm)
      have hn' : '\n' ∉ part := fun hm => hn (hline.subset hm)
      rw [he, unifyLineEnds_of_not_mem hr', firstLine_of_not_mem hn'] at hfound
      cases hfound
  | case3 size s h found hfound hlen ih => exact ih
  | case4 size s h found hfound hlen last hlast =>
    rw [hdecode, Option.map_some, hwhole] at hlast
    cases hlast
    rfl
  | case5 size s h found hfound hlen hnone =>
    refine absurd ?_ (hnone line)
    rw [hdecode, Option.map_some, hwhole]

/-! ### The markers of outputs -/

/-- **The marker of a module** is the one that it was assembled with. -/
theorem markerIn?_assemble (hn : '\n' ∉ marker) (hr : '\r' ∉ marker) {blocks : List Str}
    {separator : Text}
    (h : (GeneratedModule.assemble marker blocks separator).encode = .ok bytes) :
    markerIn? bytes = some marker := by
  have hn' : '\n' ∉ GeneratedModule.markerLine marker := by
    simpa [GeneratedModule.markerLine] using hn
  have hr' : '\r' ∉ GeneratedModule.markerLine marker := by
    simpa [GeneratedModule.markerLine] using hr
  have hline : ∃ body, GeneratedModule.assemble marker blocks separator =
      Str.ofText (GeneratedModule.markerLine marker ++ ['\n']) ++ body := by
    rw [GeneratedModule.assemble]
    split
    · exact ⟨[], (List.append_nil _).symm⟩
    · exact ⟨_, List.append_assoc _ _ _⟩
  obtain ⟨body, he⟩ := hline
  rw [he] at h
  obtain ⟨rest, rfl⟩ := Str.encode_append_eq_ok h
  rw [List.append_assoc, List.singleton_append, markerIn?, firstLine?_encode hn' hr',
    Option.bind_some, GeneratedModule.readMarker?, firstLine_append hn']
  exact Text.after?_append _ _

/-! ### First lines and what follows them -/

/-- Whether a character ends a line. -/
def isLineEnd (c : Char) : Bool := c = '\n' || c = '\r'

/-- What stands before the first line end of a text. -/
def beforeEnd (s : Text) : Text := s.takeWhile fun c => !isLineEnd c

/-- The first line of a text is complete where there is a line end, and stands before it. -/
theorem of_firstLine_unifyLineEnds {s : Text}
    (h : firstLine (unifyLineEnds s) = (line, true)) :
    (∃ c ∈ s, isLineEnd c = true) ∧ line = beforeEnd s := by
  induction s generalizing line with
  | nil => cases h
  | cons c s ih =>
    by_cases hc : isLineEnd c = true
    · refine ⟨⟨c, List.mem_cons_self, hc⟩, ?_⟩
      have hnil : ∃ rest, unifyLineEnds (c :: s) = '\n' :: rest := by
        rw [isLineEnd, Bool.or_eq_true, decide_eq_true_iff, decide_eq_true_iff] at hc
        rcases hc with rfl | rfl
        · exact ⟨_, unifyLineEnds_cons (by decide) s⟩
        · rcases s with _ | ⟨d, s⟩
          · exact ⟨[], rfl⟩
          · by_cases hd : d = '\n'
            · subst hd
              exact ⟨_, rfl⟩
            · exact ⟨_, by rw [unifyLineEnds.eq_3 _ (by simpa using hd)]⟩
      obtain ⟨rest, hrest⟩ := hnil
      rw [hrest] at h
      cases h
      rw [beforeEnd, List.takeWhile_cons_of_neg (by rw [hc]; decide)]
    · have hn : c ≠ '\n' := by
        rintro rfl
        exact hc rfl
      have hr : c ≠ '\r' := by
        rintro rfl
        exact hc rfl
      rw [unifyLineEnds_cons hr, firstLine, cutAt, if_neg hn] at h
      cases hcut : cutAt '\n' (unifyLineEnds s) with
      | none =>
        rw [hcut] at h
        cases h
      | some cut =>
        rw [hcut] at h
        cases h
        have hrest : firstLine (unifyLineEnds s) = (cut.1, true) := by rw [firstLine, hcut]
        obtain ⟨⟨d, hd, hend⟩, hline⟩ := ih hrest
        refine ⟨⟨d, List.mem_cons_of_mem _ hd, hend⟩, ?_⟩
        rw [beforeEnd, List.takeWhile_cons_of_pos (by simpa using hc)]
        exact congrArg (c :: ·) hline

/-- What stands before the first line end does not depend on what follows it. -/
theorem beforeEnd_of_prefix {s t : Text} (h : s <+: t) (hend : ∃ c ∈ s, isLineEnd c = true) :
    beforeEnd t = beforeEnd s := by
  obtain ⟨rest, rfl⟩ := h
  induction s with
  | nil =>
    obtain ⟨c, hc, -⟩ := hend
    cases hc
  | cons d s ih =>
    rw [List.cons_append, beforeEnd, beforeEnd]
    by_cases hd : isLineEnd d = true
    · rw [List.takeWhile_cons_of_neg (by simpa using hd), List.takeWhile_cons_of_neg (by simpa using hd)]
    · obtain ⟨c, hc, he⟩ := hend
      have hrest : ∃ c ∈ s, isLineEnd c = true := by
        rcases List.mem_cons.1 hc with rfl | hc
        · exact absurd he hd
        · exact ⟨c, hc, he⟩
      rw [List.takeWhile_cons_of_pos (by simpa using hd), List.takeWhile_cons_of_pos (by simpa using hd)]
      exact congrArg (d :: ·) (ih hrest)

theorem settled_prefixed (s : Text) : settled s <+: s := by
  rw [settled]
  split
  · exact List.dropLast_prefix s
  · exact List.prefix_rfl

/-- What can be read of bytes, up to the first fault. -/
def readable (bytes : List UInt8) : Text := (Utf8.scan 0 bytes).1

theorem readable_of_decodeSoFar? {s : Text} (h : Utf8.decodeSoFar? bytes = some s) :
    readable bytes = s := by
  rw [Utf8.decodeSoFar?] at h
  rw [readable]
  split at h
  · next hscan => rw [hscan, Option.some.inj h]
  · next hscan =>
    split at h
    · rw [hscan, Option.some.inj h]
    · cases h

theorem readable_of_decode? {s : Text} (h : Utf8.decode? bytes = some s) : readable bytes = s := by
  rw [Utf8.decode?, Utf8.decode] at h
  rw [readable]
  split at h
  · next hscan => rw [hscan, Option.some.inj h]
  · cases h

/-- **The first line of bytes** stands before the first line end of what can be read of the first of
them. -/
theorem of_firstLine? (h : firstLine? bytes size = some line) :
    ∃ count, (∃ c ∈ readable (bytes.take count), isLineEnd c = true) ∧
      line = beforeEnd (readable (bytes.take count)) ++ ['\n'] := by
  fun_induction firstLine? bytes size with
  | case1 => cases h
  | case2 size s hs found hfound =>
    cases h
    obtain ⟨part, hpart, rfl⟩ := Option.map_eq_some_iff.1 hs
    obtain ⟨hend, rfl⟩ := of_firstLine_unifyLineEnds hfound
    refine ⟨size, ?_, ?_⟩
    · obtain ⟨c, hc, he⟩ := hend
      exact ⟨c, by rw [readable_of_decodeSoFar? hpart]; exact (settled_prefixed part).subset hc, he⟩
    · rw [readable_of_decodeSoFar? hpart, beforeEnd_of_prefix (settled_prefixed part) hend]
      rfl
  | case3 size s hs found hfound hlen ih => exact ih h
  | case4 size s hs found hfound hlen last hlast =>
    cases h
    obtain ⟨part, hpart, hfirst⟩ := Option.map_eq_some_iff.1 hlast
    obtain ⟨hend, rfl⟩ := of_firstLine_unifyLineEnds hfirst
    refine ⟨bytes.length, ?_, ?_⟩
    · rwa [List.take_length, readable_of_decode? hpart]
    · rw [List.take_length, readable_of_decode? hpart]
  | case5 => cases h

theorem readable_take_prefixed (bytes more : List UInt8) (count : Nat) :
    readable (bytes.take count) <+: readable (bytes ++ more) := by
  obtain ⟨rest, hrest⟩ := (List.take_prefix count bytes).trans (List.prefix_append bytes more)
  rw [← hrest]
  exact Utf8.scan_append_prefix 0 _ _

/-- **The first line of bytes stays** when others come behind them. -/
theorem firstLine?_append {more : List UInt8} {size' : Nat} {line' : Text}
    (h : firstLine? bytes size = some line) (h' : firstLine? (bytes ++ more) size' = some line') :
    line' = line := by
  obtain ⟨count, hend, rfl⟩ := of_firstLine? h
  obtain ⟨count', hend', rfl⟩ := of_firstLine? h'
  have hpre' := readable_take_prefixed (bytes ++ more) [] count'
  rw [List.append_nil] at hpre'
  rw [← beforeEnd_of_prefix (readable_take_prefixed bytes more count) hend,
    ← beforeEnd_of_prefix hpre' hend']

/-- The first line of a text begins as the text does. -/
theorem firstLine?_head {c : Char} (hn : c ≠ '\n') (hr : c ≠ '\r') {more : List UInt8}
    (h : firstLine? (Utf8.encode (c :: rest) ++ more) size = some line) : line.head? = some c := by
  obtain ⟨count, hend, rfl⟩ := of_firstLine? h
  have hpre := readable_take_prefixed (Utf8.encode (c :: rest) ++ more) [] count
  rw [List.append_nil] at hpre
  rw [← beforeEnd_of_prefix hpre hend, readable, Utf8.encode_cons, List.append_assoc,
    (Utf8.spells_encodeChar c).whole, Utf8.following, Char.ofNat_toNat, beforeEnd,
    List.takeWhile_cons_of_pos]
  · rfl
  · simp [isLineEnd, hn, hr]

/-! ### What keeps its marker -/

/-- **Bytes that bear no marker but one**, whatever comes behind them. -/
def Bears (marker : Text) (bytes : List UInt8) : Prop :=
  ∀ more other, markerIn? (bytes ++ more) = some other → other = marker

/-- **Bytes that bear no marker**, whatever comes behind them. -/
def Unmarked (bytes : List UInt8) : Prop :=
  ∀ more, markerIn? (bytes ++ more) = none

theorem Unmarked.bears (h : Unmarked bytes) (marker : Text) : Bears marker bytes := by
  intro more other hother
  rw [h more] at hother
  cases hother

theorem Bears.append (h : Bears marker bytes) (more : List UInt8) : Bears marker (bytes ++ more) :=
  fun rest other hother => h (more ++ rest) other (by rwa [← List.append_assoc])

theorem Bears.eq_of_markerIn? (h : Bears marker bytes) {other : Text}
    (hother : markerIn? bytes = some other) : other = marker :=
  h [] other (by rwa [List.append_nil])

/-- What has a marker has no other. -/
theorem bears_of_markerIn? (h : markerIn? bytes = some marker) : Bears marker bytes := by
  intro more other hother
  obtain ⟨line, hline, hmarker⟩ := Option.bind_eq_some_iff.1 h
  obtain ⟨line', hline', hother⟩ := Option.bind_eq_some_iff.1 hother
  rw [firstLine?_append hline hline', hmarker] at hother
  exact (Option.some.inj hother).symm

/-- A text that does not begin with a comment carries no marker. -/
theorem unmarked_of_head {c : Char} (hn : c ≠ '\n') (hr : c ≠ '\r') (hc : c ≠ '/')
    (rest : Text) : Unmarked (Utf8.encode (c :: rest)) := by
  refine fun more => Option.eq_none_iff_forall_ne_some.2 fun other h => ?_
  obtain ⟨line, hline, hmarker⟩ := Option.bind_eq_some_iff.1 h
  have hhead := firstLine?_head hn hr hline
  rcases line with _ | ⟨d, line⟩
  · cases hhead
  · cases hhead
    rw [GeneratedModule.readMarker?, firstLine, cutAt, if_neg hn] at hmarker
    cases hcut : cutAt '\n' line with
    | none =>
      rw [hcut] at hmarker
      cases hmarker
    | some cut =>
      rw [hcut] at hmarker
      change Text.after? "// ".toList (c :: cut.1) = some other at hmarker
      rw [show "// ".toList = '/' :: "/ ".toList from rfl, Text.after?, if_neg hc.symm] at hmarker
      cases hmarker

theorem exists_cons_of_append {c : Char} {front tail a b d e : Text} (h : front = c :: tail) :
    ∃ rest, front ++ a ++ b ++ d ++ e = c :: rest :=
  ⟨tail ++ a ++ b ++ d ++ e, by rw [h]; rfl⟩

/-- **A module of class constants carries no marker.** -/
theorem unmarked_classModule {bindings : List Stylesheet.ClassBinding} {text : Text}
    (h : GeneratedModule.classModule bindings = some text) : Unmarked (Utf8.encode text) := by
  rw [GeneratedModule.classModule] at h
  split at h
  · cases h
  · next hne =>
    cases h
    rcases bindings with _ | ⟨b, bindings⟩
    · exact absurd rfl hne
    · have hexport : "export const ".toList = 'e' :: "xport const ".toList := by decide
      obtain ⟨rest, hrest⟩ : ∃ rest, b.render = 'e' :: rest := exists_cons_of_append hexport
      have hhead : ∃ rest, Stylesheet.renderConstants (b :: bindings) ++ ['\n'] = 'e' :: rest := by
        rw [Stylesheet.renderConstants, List.map_cons, hrest]
        cases bindings.map Stylesheet.ClassBinding.render with
        | nil => exact ⟨_, rfl⟩
        | cons text texts => exact ⟨_, rfl⟩
      obtain ⟨rest, he⟩ := hhead
      rw [he]
      exact unmarked_of_head (by decide) (by decide) (by decide) rest

end Build
end TemplateBindings
