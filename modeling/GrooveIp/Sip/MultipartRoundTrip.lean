import GrooveIp.Sip.Multipart

/-!
# Multipart bodies are read back

What a multipart body sends, whatever the sizes of its chunks, and what is read from it. The separator
of a part and its headers are sent together with a first byte of its body, so that a last part without
one is never sent; a part without headers has no empty line in front, so that one in its body is taken
for the end of headers.
-/

namespace GrooveIp.Sip.Multipart

open Lib List MultipartBody Part
open List (drop length)

variable {Header : Type} {marshal : Header → List Char} {parse : List Char → Option Header}

/-! ## C strings at a cursor -/

theorem takeWhile_append_nul {s : List Char} (hs : nul ∉ s) (rest : List Char) :
    (s ++ nul :: rest).takeWhile (· ≠ nul) = s := by
  rw [takeWhile_append_of_pos]
  · simp
  · intro c hc
    simpa using fun h : c = nul => hs (h ▸ hc)

theorem takeWhile_append_of_not_mem {s : List Char} (hs : nul ∉ s) (rest : List Char) :
    (s ++ rest).takeWhile (· ≠ nul) = s ++ rest.takeWhile (· ≠ nul) := by
  rw [takeWhile_append_of_pos]
  intro c hc
  simpa using fun h : c = nul => hs (h ▸ hc)

variable {buffer rest : List Char}

theorem drop_set_of_eq_append {u : List Char} {cursor : Nat} {x : Char}
    (h : buffer.drop cursor = u ++ x :: rest) (y : Char) :
    (buffer.set (cursor + u.length) y).drop cursor = u ++ y :: rest := by
  rw [drop_set, if_neg (by omega), h, Nat.add_sub_cancel_left,
    set_append_right _ _ (by omega), Nat.sub_self]
  rfl

/-! ## Reading -/

/-- The loop over the headers ends at the empty line, and leaves what is behind it. -/
theorem readHeaders_ok (parse : List Char → Option Header) {endHeaders fuel : Nat} {u : List Char}
    {cursor : Nat} (hbuffer : buffer.drop cursor = u ++ crlf ++ rest) (hu : nul ∉ u)
    (hend : cursor + u.length = endHeaders) (hfuel : u.length < fuel) (headers : List Header) :
    ∃ buffer' headers', readHeaders parse endHeaders fuel buffer cursor headers =
        .ok (buffer', headers') ∧ buffer'.drop (endHeaders + 2) = buffer.drop (endHeaders + 2) := by
  induction fuel generalizing buffer u cursor headers with
  | zero => omega
  | succ fuel ih =>
    have hcstr : cstr buffer cursor = u ++ crlf ++ rest.takeWhile (· ≠ nul) := by
      rw [cstr, hbuffer, takeWhile_append_of_not_mem]
      simp only [mem_append, not_or]
      exact ⟨hu, by decide⟩
    have hfound : ∃ k, strstr crlf (cstr buffer cursor) = some k ∧ k ≤ u.length := by
      cases hfind : strstr crlf (cstr buffer cursor) with
      | none =>
        have hnone := strstr_eq_none_iff.mp hfind u.length (by rw [hcstr]; simp)
        rw [hcstr, append_assoc, drop_left] at hnone
        exact absurd (prefix_append _ _) hnone
      | some k =>
        refine ⟨k, rfl, Nat.le_of_not_lt fun hlt => ?_⟩
        have hfirst := (strstr_eq_some_iff.mp hfind).2.2 u.length hlt
        rw [hcstr, append_assoc, drop_left] at hfirst
        exact hfirst (prefix_append _ _)
    obtain ⟨k, hfind, hk⟩ := hfound
    rw [readHeaders, hfind]
    dsimp only
    by_cases hlast : k = u.length
    · rw [if_pos (by omega)]
      refine ⟨_, _, rfl, ?_⟩
      rw [drop_set, if_pos (by omega)]
    · rw [if_neg (by omega)]
      have hocc := (strstr_eq_some_iff.mp hfind).2.1
      rw [hcstr, append_assoc, drop_append_of_le_length hk] at hocc
      -- a line end in front of the empty line ends in front of it
      obtain ⟨v, hv⟩ : ∃ v, u.drop k = crlf ++ v := by
        have hne : u.drop k ≠ [] := by
          rw [Ne, drop_eq_nil_iff]
          omega
        match hdrop : u.drop k with
        | [] => exact absurd hdrop hne
        | [c] =>
          rw [hdrop] at hocc
          simp [crlf] at hocc
        | c :: d :: v =>
          rw [hdrop] at hocc
          obtain ⟨hc, hocc⟩ := cons_prefix_cons.mp hocc
          obtain ⟨hd, -⟩ := cons_prefix_cons.mp hocc
          exact ⟨v, by rw [← hc, ← hd]; rfl⟩
      have hlength : v.length + (k + 2) = u.length := by
        have := congrArg length hv
        simp [crlf] at this
        omega
      have hnext : (buffer.set (cursor + k) nul).drop (cursor + k + 2) = v ++ crlf ++ rest := by
        have hcut : u.drop (k + 2) = v := by
          rw [← drop_drop, hv]
          rfl
        rw [drop_set, if_pos (by omega), Nat.add_assoc, ← drop_drop, hbuffer,
          append_assoc, drop_append_of_le_length (by omega), hcut, append_assoc]
      have hvnul : nul ∉ v := fun hmem =>
        hu (mem_of_mem_drop (i := k) (by rw [hv]; exact mem_append_right _ hmem))
      obtain ⟨buffer', headers', hread, hrest⟩ := ih hnext hvnul (by omega) (by omega)
        (headers ++ (parse (cstr (buffer.set (cursor + k) nul) cursor)).toList)
      refine ⟨buffer', headers', hread, ?_⟩
      rw [hrest, drop_set, if_pos (by omega)]

/-- The body that is read from the text of a part. -/
def contentOf (text : List Char) : List Char :=
  match strstr (crlf ++ crlf) text with
  | none => text
  | some k => text.drop (k + 4)

theorem readPart_ok (parse : List Char → Option Header) {text : List Char} {x : Char}
    {cursor : Nat} (hbuffer : buffer.drop cursor = text ++ x :: rest) (htext : nul ∉ text) :
    ∃ buffer' part, readPart parse buffer cursor (cursor + text.length) = .ok (buffer', part) ∧
      part.buffer = contentOf text ∧
      buffer'.drop (cursor + text.length + 1) = buffer.drop (cursor + text.length + 1) := by
  have hcut := drop_set_of_eq_append hbuffer nul
  have hstring : cstr (buffer.set (cursor + text.length) nul) cursor = text := by
    rw [cstr, hcut, takeWhile_append_nul htext]
  have hbehind : (buffer.set (cursor + text.length) nul).drop (cursor + text.length + 1) =
      buffer.drop (cursor + text.length + 1) := by
    rw [drop_set, if_pos (by omega)]
  unfold readPart contentOf
  dsimp only
  rw [hstring]
  cases hempty : strstr (crlf ++ crlf) text with
  | none => exact ⟨_, _, rfl, rfl, hbehind⟩
  | some k =>
    have hocc := (strstr_eq_some_iff.mp hempty).2.1
    have hle : k + 4 ≤ text.length := strstr_le hempty
    have hsplit : text = text.take k ++ crlf ++ (crlf ++ text.drop (k + 4)) := by
      obtain ⟨v, hv⟩ := hocc
      have hdrop : text.drop (k + 4) = v := by
        rw [← drop_drop, ← hv]
        rfl
      rw [hdrop]
      conv_lhs => rw [← take_append_drop k text, ← hv]
      simp
    have hlines : (buffer.set (cursor + text.length) nul).drop cursor =
        text.take k ++ crlf ++ (crlf ++ text.drop (k + 4) ++ nul :: rest) := by
      rw [hcut]
      conv_lhs => rw [hsplit]
      simp
    have htake : (text.take k).length = k := length_take_of_le (by omega)
    have hsize : k < (buffer.set (cursor + text.length) nul).length := by
      have := congrArg length hcut
      simp at this
      simp
      omega
    have hend : cursor + (text.take k).length = cursor + k := by rw [htake]
    have hfuel : (text.take k).length < (buffer.set (cursor + text.length) nul).length := by
      rwa [htake]
    obtain ⟨buffer', headers, hread, hrest⟩ := readHeaders_ok parse hlines
      (fun hmem => htext (mem_of_mem_take hmem)) hend hfuel []
    simp only [hread, bind, Except.bind, pure, Except.pure]
    refine ⟨buffer', _, rfl, ?_, ?_⟩
    · dsimp only
      rw [cstr, Nat.add_assoc, ← drop_drop, hcut, drop_append_of_le_length (by omega),
        takeWhile_append_nul fun hmem => htext (mem_of_mem_drop hmem)]
    · rw [← hbehind]
      have hmore := congrArg (drop (text.length - k - 1)) hrest
      rw [drop_drop, drop_drop] at hmore
      have hindex : cursor + k + 2 + (text.length - k - 1) = cursor + text.length + 1 := by omega
      rwa [hindex] at hmore

/-- The text of the parts, each with the separator behind it. -/
def delimited (boundary : List Char) (texts : List (List Char)) : List Char :=
  texts.flatMap fun text => crlf ++ text ++ crlf ++ dashBoundary boundary

/-- The separator is found behind the text of a part first. -/
def Separable (boundary text : List Char) : Prop :=
  strstr (dashBoundary boundary) (text ++ crlf ++ dashBoundary boundary) = some (text.length + 2)

/-- One round of the reader, in front of the text of a part. -/
theorem Reading.step_ok (marshal : Header → List Char) (parse : List Char → Option Header)
    {reading : Reading Header} {text : List Char}
    (hbuffer : reading.buffer.drop reading.cursor = crlf ++ text ++ crlf ++ dashBoundary
      reading.body.boundary ++ rest) (htext : nul ∉ text)
    (hboundary : nul ∉ reading.body.boundary) (hseparable : Separable reading.body.boundary text) :
    ∃ buffer' part cursor', part.buffer = contentOf text ∧ buffer'.drop cursor' = rest ∧
      reading.step marshal parse = .ok (if rest.takeWhile (· ≠ nul) = ['-', '-', '\r', '\n'] then
          .inr (reading.body.addPart marshal part)
        else .inl ⟨buffer', cursor', reading.body.addPart marshal part⟩) := by
  have hdash : nul ∉ dashBoundary reading.body.boundary := by
    simp only [dashBoundary, mem_cons, not_or]
    exact ⟨by decide, by decide, hboundary⟩
  have hnext : reading.buffer.drop (reading.cursor + 2) =
      text ++ crlf ++ dashBoundary reading.body.boundary ++ rest := by
    rw [← drop_drop, hbuffer]
    rfl
  have hfind : strstr (dashBoundary reading.body.boundary)
      (cstr reading.buffer (reading.cursor + 2)) = some (text.length + 2) := by
    rw [cstr, hnext, takeWhile_append_of_not_mem]
    · exact strstr_append hseparable _
    · simp only [mem_append, not_or]
      exact ⟨⟨htext, by decide⟩, hdash⟩
  have hopen : crlf <+: cstr reading.buffer reading.cursor := by
    rw [cstr, hbuffer, append_assoc, append_assoc, append_assoc,
      takeWhile_append_of_not_mem (by decide)]
    exact prefix_append _ _
  have hchar : ∀ i, charAt reading.buffer (reading.cursor + 2 + i) =
      charAt (text ++ crlf ++ dashBoundary reading.body.boundary ++ rest) i := by
    intro i
    rw [charAt, charAt, ← hnext, List.getElem?_drop]
  have hcr : charAt reading.buffer (reading.cursor + 2 + (text.length + 2) - 2) = '\r' := by
    rw [Nat.add_sub_assoc (by omega), Nat.add_sub_cancel, hchar]
    simp [charAt, crlf]
  have hlf : charAt reading.buffer (reading.cursor + 2 + (text.length + 2) - 1) = '\n' := by
    rw [Nat.add_sub_assoc (by omega), hchar]
    simp [charAt, crlf]
  have htail : reading.buffer.drop (reading.cursor + 2) =
      text ++ '\r' :: ('\n' :: dashBoundary reading.body.boundary ++ rest) := by
    rw [hnext]
    simp [crlf]
  obtain ⟨buffer', part, hread, hpart, hrest⟩ := readPart_ok parse htail htext
  have hend : reading.cursor + 2 + (text.length + 2) - 2 = reading.cursor + 2 + text.length := by
    omega
  have hbehind : buffer'.drop (reading.cursor + 2 + text.length +
      (dashBoundary reading.body.boundary).length + 2) = rest := by
    have hmore := congrArg (drop ((dashBoundary reading.body.boundary).length + 1)) hrest
    have hskip := congrArg
      (drop (text ++ crlf ++ dashBoundary reading.body.boundary).length) hnext
    have hindex : reading.cursor + 2 + text.length + 1 +
        ((dashBoundary reading.body.boundary).length + 1) = reading.cursor + 2 +
          (text ++ crlf ++ dashBoundary reading.body.boundary).length := by
      simp [crlf]
      omega
    have hindex' : reading.cursor + 2 + text.length + (dashBoundary reading.body.boundary).length + 2
        = reading.cursor + 2 + (text ++ crlf ++ dashBoundary reading.body.boundary).length := by
      simp [crlf]
      omega
    rw [drop_drop, drop_left] at hskip
    rw [drop_drop, drop_drop, hindex, hskip] at hmore
    rw [hindex', hmore]
  refine ⟨buffer', part, _, hpart, hbehind, ?_⟩
  unfold Reading.step
  dsimp only
  rw [if_neg (not_not.mpr hopen), hfind]
  rw [hend] at hcr
  simp only [hlf, hend, hcr, and_self, if_true, hread, bind, Except.bind, pure, Except.pure]
  rw [cstr, hbehind]
  split <;> rfl

theorem parts_addPart (marshal : Header → List Char) (body : MultipartBody Header)
    (part : Part Header) :
    (body.addPart marshal part).parts.map Part.buffer = body.parts.map Part.buffer ++ [part.buffer] ∧
      (body.addPart marshal part).boundary = body.boundary := by
  unfold addPart
  dsimp only
  split <;> exact ⟨map_append, rfl⟩

theorem loop_reading_ok {texts : List (List Char)} (hne : texts ≠ []) {reading : Reading Header}
    {fuel : Nat} (hfuel : texts.length ≤ fuel) (hbuffer : reading.buffer.drop reading.cursor =
      delimited reading.body.boundary texts ++ ['-', '-', '\r', '\n', nul])
    (htexts : ∀ text ∈ texts, nul ∉ text) (hboundary : nul ∉ reading.body.boundary)
    (hseparable : ∀ text ∈ texts, Separable reading.body.boundary text) :
    ∃ body, loop .diverged (Reading.step marshal parse) fuel reading = .ok body ∧
      body.parts.map Part.buffer = reading.body.parts.map Part.buffer ++ texts.map contentOf := by
  induction texts generalizing reading fuel with
  | nil => exact absurd rfl hne
  | cons text texts ih =>
    obtain ⟨fuel, rfl⟩ : ∃ n, fuel = n + 1 := ⟨fuel - 1, by simp at hfuel; omega⟩
    have hsplit : reading.buffer.drop reading.cursor =
        crlf ++ text ++ crlf ++ dashBoundary reading.body.boundary ++
          (delimited reading.body.boundary texts ++ ['-', '-', '\r', '\n', nul]) := by
      rw [hbuffer, delimited, flatMap_cons, append_assoc]
      rfl
    obtain ⟨buffer', part, cursor', hpart, hrest, hstep⟩ := Reading.step_ok marshal parse
      hsplit (htexts text mem_cons_self) hboundary (hseparable text mem_cons_self)
    obtain ⟨hparts, hsame⟩ := parts_addPart marshal reading.body part
    rw [loop, hstep]
    cases texts with
    | nil =>
      exact ⟨_, rfl, by rw [hparts, hpart]; rfl⟩
    | cons text' texts =>
      let reading' : Reading Header := ⟨buffer', cursor', reading.body.addPart marshal part⟩
      have hrest' : reading'.buffer.drop reading'.cursor =
          delimited reading'.body.boundary (text' :: texts) ++ ['-', '-', '\r', '\n', nul] := by
        rw [hsame]
        exact hrest
      obtain ⟨body, hbody, hall⟩ := ih (cons_ne_nil _ _) (Nat.le_of_succ_le_succ hfuel) hrest'
        (fun t ht => htexts t (mem_cons_of_mem _ ht)) (by rw [hsame]; exact hboundary)
        (fun t ht => by rw [hsame]; exact hseparable t (mem_cons_of_mem _ ht))
      refine ⟨body, hbody, ?_⟩
      rw [hall, hparts, hpart]
      simp

variable {boundary : List Char}

theorem newFromBuffer_ok (marshal : Header → List Char)
    (parse : List Char → Option Header) {texts : List (List Char)} (hne : texts ≠ [])
    (htexts : ∀ text ∈ texts, nul ∉ text) (hboundary : nul ∉ boundary)
    (hseparable : ∀ text ∈ texts, Separable boundary text) :
    ∃ body, newFromBuffer marshal parse (dashBoundary boundary ++ delimited boundary texts ++
        ['-', '-', '\r', '\n']) boundary = .ok body ∧
      body.parts.map Part.buffer = texts.map contentOf := by
  have hdash : nul ∉ dashBoundary boundary := by
    simp only [dashBoundary, mem_cons, not_or]
    exact ⟨by decide, by decide, hboundary⟩
  have hopen : dashBoundary boundary <+: cstr (dashBoundary boundary ++ delimited boundary texts ++
      ['-', '-', '\r', '\n'] ++ [nul]) 0 := by
    rw [cstr, drop_zero, append_assoc, append_assoc, takeWhile_append_of_not_mem hdash]
    exact prefix_append _ _
  have hlength : texts.length ≤ (delimited boundary texts).length := by
    clear hne htexts hseparable hopen
    induction texts with
    | nil => exact Nat.le_refl _
    | cons text texts ih =>
      have hstep : delimited boundary (text :: texts) = crlf ++ text ++ crlf ++
          dashBoundary boundary ++ delimited boundary texts := flatMap_cons
      have hcrlf : crlf.length = 2 := rfl
      rw [hstep]
      simp only [length_append, length_cons]
      omega
  unfold newFromBuffer
  rw [if_neg (not_not.mpr hopen)]
  have hbuffer : (dashBoundary boundary ++ delimited boundary texts ++ ['-', '-', '\r', '\n'] ++
      [nul]).drop (dashBoundary boundary).length =
        delimited boundary texts ++ ['-', '-', '\r', '\n', nul] := by
    rw [append_assoc, append_assoc, drop_left]
    rfl
  have hfuel : texts.length ≤ (dashBoundary boundary ++ delimited boundary texts ++
      ['-', '-', '\r', '\n']).length + 1 := by
    simp only [length_append]
    omega
  exact loop_reading_ok hne hfuel hbuffer htexts hboundary hseparable

/-! ## Sending -/

theorem subSize_of_le {a b : Nat} (h : b ≤ a) (ha : a < 2 ^ 64) : subSize a b = a - b := by
  unfold subSize
  omega

variable {part : Part Header}

theorem Part.sendChunk_eq {size : Nat} (hsize : 0 < size)
    (hpart : part.transferedSize = 0 ∨ part.transferedSize < part.buffer.length) :
    part.sendChunk size = .ok
      ({ ret := if part.buffer.length - part.transferedSize ≤ size then .stop else .cont
         bytes := (part.buffer.drop part.transferedSize).take size
         size := min size (part.buffer.length - part.transferedSize) }, { part with
          transferedSize :=
            part.transferedSize + min size (part.buffer.length - part.transferedSize) }) := by
  have htake : ∀ n, (part.buffer.drop part.transferedSize).take
      (min n (part.buffer.length - part.transferedSize)) =
        (part.buffer.drop part.transferedSize).take n := by
    intro n
    rw [← length_drop, ← take_take, take_length]
  unfold sendChunk Multipart.sendChunk chunkSend
  by_cases hempty : part.buffer.length = 0
  · have hzero : part.transferedSize = 0 := by omega
    simp [bind, Except.bind, pure, Except.pure, hzero, eq_nil_of_length_eq_zero hempty]
  · have hlt : part.transferedSize < part.buffer.length := by omega
    have hnot : ¬(min size (part.buffer.length - part.transferedSize) = 0 ∧
        part.transferedSize = part.buffer.length) := by omega
    simp only [hempty, ne_eq, not_false_eq_true, if_true, true_and]
    rw [if_neg hnot]
    simp only [bind, Except.bind, pure, Except.pure, Nat.min_assoc, Nat.min_self, htake]
    by_cases hle : part.buffer.length - part.transferedSize ≤ size
    · simp only [Nat.min_eq_right hle, hle, if_true]
      rw [if_pos (by omega)]
    · have hmin : min size (part.buffer.length - part.transferedSize) = size := by omega
      rw [hmin, if_neg (by omega), if_neg (by omega), if_neg hle]

/-- What a part sends with the separator in front of it. -/
def Part.separated (boundary : List Char) (part : Part Header) : List Char :=
  crlf ++ dashBoundary boundary ++ crlf ++ part.headerStringBuffer.getD [] ++ part.buffer

/-- What is still to be sent. -/
def MultipartBody.pending (body : MultipartBody Header) : List Char :=
  match body.transferCurrentPart with
  | [] => []
  | part :: next =>
    body.front part ++ part.buffer.drop part.transferedSize ++
      next.flatMap (separated body.boundary) ++ closing body.boundary

/-- A multipart body in the midst of being sent. -/
structure Transferring (body : MultipartBody Header) (part : Part Header)
    (next : List (Part Header)) : Prop where
  current : body.transferCurrentPart = part :: next
  shorter : next.length < body.parts.length
  within : part.transferedSize = 0 ∨ part.transferedSize < part.buffer.length
  untouched : ∀ part ∈ next, part.transferedSize = 0
  expected : body.expectedSize = body.transferedSize + body.pending.length

/-- A chunk has room for the end of the body, a separator, the headers of a part and a character. -/
def Roomy (boundary : List Char) (parts : List (Part Header)) (size : Nat) : Prop :=
  ∀ part ∈ parts, (closing boundary).length + (crlf ++ dashBoundary boundary ++ crlf).length +
    (part.headerStringBuffer.getD []).length + 1 ≤ size

theorem MultipartBody.length_front_le (body : MultipartBody Header) (part : Part Header) :
    (body.front part).length ≤ (crlf ++ dashBoundary body.boundary ++ crlf).length +
      (part.headerStringBuffer.getD []).length := by
  unfold front separator
  split
  · split <;> simp only [length_append, length_nil] <;> omega
  · simp

theorem length_closing (boundary : List Char) :
    (closing boundary).length = boundary.length + 8 := by
  simp [closing, crlf, dashBoundary]

variable {body : MultipartBody Header} {next : List (Part Header)}

theorem MultipartBody.pending_pos (h : body.transferCurrentPart = part :: next) :
    0 < body.pending.length := by
  have hclosing := length_closing body.boundary
  unfold pending
  rw [h]
  simp only [length_append]
  omega

theorem MultipartBody.front_next (body : MultipartBody Header)
    (hcurrent : body.transferCurrentPart = part :: next)
    (hshorter : (part :: next).length < body.parts.length) (hzero : part.transferedSize = 0) :
    body.front part ++ part.buffer.drop part.transferedSize = part.separated body.boundary := by
  unfold front separator separated
  rw [if_pos hzero, hcurrent, if_pos (by omega), hzero, drop_zero]

/-- Whether the last part has no body. -/
def LastEmpty (parts : List (Part Header)) : Prop :=
  ∃ part, parts.getLast? = some part ∧ part.buffer = []

/-- What a call does for a multipart body in the midst of being sent: it overflows at an empty last part,
goes on, or sends all that is left. -/
inductive Sent (body : MultipartBody Header) (part : Part Header) (next : List (Part Header))
    (chunk : Chunk) (body' : MultipartBody Header) : Prop where
  | overflow (ret : chunk.ret = .bufferOverflow) (last : next = []) (empty : part.buffer = [])
      (size : chunk.size + (closing body.boundary).length = body.pending.length)
  | going (ret : chunk.ret = .cont) (size : chunk.size = chunk.bytes.length)
      (some : chunk.bytes ≠ []) (part' : Part Header) (next' : List (Part Header))
      (current : body'.transferCurrentPart = part' :: next')
      (shorter : next'.length < body.parts.length)
      (within : part'.transferedSize = 0 ∨ part'.transferedSize < part'.buffer.length)
      (untouched : ∀ p ∈ next', p.transferedSize = 0)
      (same : { body' with transferCurrentPart := body.transferCurrentPart } = body)
      (pending : chunk.bytes ++ body'.pending = body.pending)
      (last : LastEmpty body'.transferCurrentPart ↔ LastEmpty body.transferCurrentPart)
      (room : ∀ size, Roomy body.boundary body.transferCurrentPart size →
        Roomy body.boundary body'.transferCurrentPart size)
  | done (ret : chunk.ret = .stop) (bytes : chunk.bytes = body.pending)
      (size : chunk.size = chunk.bytes.length) (last : ¬LastEmpty body.transferCurrentPart)

/-- `belle_sip_multipart_body_handler_send_chunk` on a body in the midst of being sent. -/
theorem Transferring.chunkSend (h : Transferring body part next) {size : Nat}
    (hsize : size < 2 ^ 64) (hroom : Roomy body.boundary (part :: next) size) :
    ∃ chunk body', body.chunkSend (min size body.pending.length) = .ok (chunk, body') ∧
      Sent body part next chunk body' := by
  have hfront := body.length_front_le part
  have hlong := hroom part mem_cons_self
  have hpending : body.pending = body.front part ++ part.buffer.drop part.transferedSize ++
      next.flatMap (separated body.boundary) ++ closing body.boundary := by
    unfold pending
    rw [h.current]
  have hlength := congrArg length hpending
  simp only [length_append, length_drop] at hlength
  have hsub : subSize (min size body.pending.length) (body.boundary.length + 8) =
      min size body.pending.length - (closing body.boundary).length := by
    rw [← length_closing]
    exact subSize_of_le (by omega) (by omega)
  have hlastOf : LastEmpty body.transferCurrentPart ↔ LastEmpty (part :: next) := by rw [h.current]
  unfold MultipartBody.chunkSend
  rw [h.current]
  dsimp only
  rw [hsub]
  by_cases hover : part.transferedSize = 0 ∧ min size body.pending.length -
      (closing body.boundary).length < (body.front part).length + 1
  · rw [if_pos hover]
    -- the chunk is large enough, so what is left is the end of the body only
    have hrest : (next.flatMap (separated body.boundary)).length = 0 ∧
        part.buffer.length = 0 := by omega
    have hnext : next = [] := by
      match next, hrest.1 with
      | [], _ => rfl
      | p :: ps, hzero =>
        simp [separated, crlf] at hzero
    exact ⟨_, _, rfl, .overflow rfl hnext (eq_nil_of_length_eq_zero hrest.2) (by
      dsimp only
      omega)⟩
  · rw [if_neg hover]
    generalize hn : min size body.pending.length - (closing body.boundary).length -
      (body.front part).length = n
    have hfrontZero : part.transferedSize ≠ 0 → (body.front part).length = 0 := by
      intro hne
      simp [front, hne]
    have hpos : 0 < n := by
      have := h.within
      by_cases hzero : part.transferedSize = 0
      · omega
      · have := hfrontZero hzero
        omega
    rw [sendChunk_eq hpos h.within]
    simp only [bind, Except.bind]
    have hbytes : (body.front part ++ (part.buffer.drop part.transferedSize).take n).length =
        min n (part.buffer.length - part.transferedSize) + (body.front part).length := by
      rw [length_append, length_take, length_drop, Nat.add_comm]
    have hsome : body.front part ++ (part.buffer.drop part.transferedSize).take n ≠ [] := by
      rw [Ne, ← length_eq_zero_iff, hbytes]
      have := h.within
      by_cases hzero : part.transferedSize = 0
      · simp [front, separator, hzero, dashBoundary]
      · omega
    rw [if_neg (by omega)]
    by_cases hend : part.buffer.length - part.transferedSize ≤ n
    · have htake : (part.buffer.drop part.transferedSize).take n =
          part.buffer.drop part.transferedSize :=
        take_of_length_le (by rw [length_drop]; exact hend)
      simp only [if_pos hend, reduceCtorEq, if_false]
      match next, h, hroom, hpending, hlength, hlastOf with
      | [], h, hroom, hpending, hlength, hlastOf =>
        rw [if_neg (fun hne => hne rfl), if_neg (by simp at hlength; omega)]
        refine ⟨_, _, rfl, .done rfl ?_ ?_ ?_⟩
        · dsimp only
          rw [hpending, htake, flatMap_nil, append_nil]
        · dsimp only
          rw [length_append, hbytes, length_closing]
        · rw [hlastOf]
          rintro ⟨last, hlast, hempty⟩
          obtain rfl : part = last := by simpa using hlast
          rw [hempty] at hlength
          simp at hlength
          omega
      | p :: next, h, hroom, hpending, hlength, hlastOf =>
        have hzero := h.untouched p mem_cons_self
        refine ⟨_, _, rfl, .going rfl hbytes.symm hsome p next rfl ?_ (.inl hzero)
          (fun q hq => h.untouched q (mem_cons_of_mem _ hq)) rfl ?_ ?_ ?_⟩
        · exact Nat.lt_of_succ_lt h.shorter
        · have hfirst := front_next
            { body with transferCurrentPart := p :: next } rfl h.shorter hzero
          rw [hpending, htake, flatMap_cons, ← hfirst]
          simp [pending]
        · rw [hlastOf]
          simp [LastEmpty, List.getLast?_cons_cons]
        · rw [h.current]
          exact fun m hm q hq => hm q (mem_cons_of_mem _ hq)
    · simp only [if_neg hend, if_true]
      have hmin : min n (part.buffer.length - part.transferedSize) = n := by omega
      refine ⟨_, _, rfl, .going rfl hbytes.symm hsome _ next rfl h.shorter (.inr ?_) h.untouched
        rfl ?_ ?_ ?_⟩
      · dsimp only
        omega
      · have hcut : part.buffer.drop part.transferedSize =
            (part.buffer.drop part.transferedSize).take n ++
              part.buffer.drop (part.transferedSize + n) := by
          rw [← drop_drop, take_append_drop]
        have hnext : part.transferedSize + n ≠ 0 := by omega
        unfold pending front
        rw [h.current]
        dsimp only
        rw [hmin, if_neg hnext, nil_append]
        conv_rhs => rw [hcut]
        simp only [append_assoc]
      · rw [hlastOf]
        cases next with
        | nil => simp [LastEmpty]
        | cons p next => simp [LastEmpty, List.getLast?_cons_cons]
      · rw [h.current]
        intro m hm q hq
        obtain rfl | hq := mem_cons.mp hq
        · exact hm part mem_cons_self
        · exact hm q (mem_cons_of_mem _ hq)

/-- `belle_sip_body_handler_send_chunk` on a body in the midst of being sent. -/
theorem Transferring.sendChunk (h : Transferring body part next) {size : Nat}
    (hsize : size < 2 ^ 64) (hroom : Roomy body.boundary (part :: next) size) :
    ∃ chunk body', body.sendChunk size = .ok (chunk, body') ∧
      (chunk.ret = .bufferOverflow ∧ LastEmpty (part :: next) ∨
        (chunk.ret = .stop ∧ chunk.bytes = body.pending ∧ ¬LastEmpty (part :: next)) ∨
        (chunk.ret = .cont ∧ chunk.bytes ≠ [] ∧ chunk.bytes ++ body'.pending = body.pending ∧
          ∃ part' next', Transferring body' part' next' ∧
            (LastEmpty (part' :: next') ↔ LastEmpty (part :: next)) ∧
            body'.boundary = body.boundary ∧ ∀ size, Roomy body.boundary (part :: next) size →
              Roomy body'.boundary (part' :: next') size)) := by
  have hclosing := length_closing body.boundary
  have hpos := pending_pos h.current
  have hexpected := h.expected
  obtain ⟨chunk, body', hchunk, hsent⟩ := h.chunkSend hsize hroom
  have hleft : body.expectedSize - body.transferedSize = body.pending.length := by omega
  have hknown : body.expectedSize ≠ 0 := by omega
  unfold MultipartBody.sendChunk Multipart.sendChunk
  simp only [hknown, ne_eq, not_false_eq_true, if_true, true_and]
  rw [hleft, if_neg (by omega), hchunk]
  simp only [bind, Except.bind, pure, Except.pure]
  refine ⟨_, _, rfl, ?_⟩
  cases hsent with
  | overflow ret last empty size =>
    left
    rw [if_neg (by omega)]
    exact ⟨ret, part, by rw [last]; rfl, empty⟩
  | done ret bytes size last =>
    right
    left
    rw [bytes] at size
    rw [if_pos (by omega)]
    rw [h.current] at last
    exact ⟨rfl, bytes, last⟩
  | going ret size some part' next' current shorter within untouched same pending last room =>
    right
    right
    have hsame : body'.boundary = body.boundary ∧ body'.parts = body.parts ∧
        body'.expectedSize = body.expectedSize := by
      rw [← same]
      exact ⟨rfl, rfl, rfl⟩
    have hpending := congrArg length pending
    rw [length_append] at hpending
    have hsame' : ∀ transferedSize,
        ({ body' with transferedSize } : MultipartBody Header).pending = body'.pending :=
      fun _ => rfl
    have hleft' := pending_pos current
    rw [h.current, current] at last room
    rw [if_neg (by omega), hsame']
    refine ⟨ret, some, pending, part', next', ⟨current, ?_, within, untouched, ?_⟩, last,
      hsame.1, ?_⟩
    · dsimp only
      rw [hsame.2.1]
      exact shorter
    · dsimp only
      rw [hsame', hsame.2.2]
      omega
    · rw [hsame.1]
      exact room

theorem loop_sending_ok {sizes : Nat → UInt64} (sending : Sending Header)
    (h : Transferring sending.body part next)
    (hroom : ∀ i, Roomy sending.body.boundary (part :: next) (sizes i).toNat) {fuel : Nat}
    (hfuel : sending.body.pending.length < fuel) :
    ∃ r, loop .diverged (Sending.step sizes) fuel sending = .ok r ∧
      (LastEmpty (part :: next) → r = none) ∧
      (¬LastEmpty (part :: next) → r = some (sending.output ++ sending.body.pending)) := by
  refine loop_ok (fun s => ∃ part' next', Transferring s.body part' next' ∧
      (∀ i, Roomy s.body.boundary (part' :: next') (sizes i).toNat) ∧
      (LastEmpty (part' :: next') ↔ LastEmpty (part :: next)) ∧
      s.output ++ s.body.pending = sending.output ++ sending.body.pending)
    _ (fun s => s.body.pending.length) ?_ ⟨part, next, h, hroom, Iff.rfl, rfl⟩ hfuel
  rintro s ⟨part', next', hs, hsizes, hlast, houtput⟩
  obtain ⟨chunk, body', hchunk, hcases⟩ := hs.sendChunk (sizes s.calls).toNat_lt (hsizes s.calls)
  unfold Sending.step
  simp only [hchunk, bind, Except.bind, pure, Except.pure]
  obtain ⟨hret, hempty⟩ | ⟨hret, hbytes, hsome⟩ |
    ⟨hret, hsome, hpending, part'', next'', hnext, hlast', hboundary, hroom'⟩ := hcases
  · right
    rw [hret]
    exact ⟨none, rfl, fun _ => rfl, fun hne => absurd (hlast.mp hempty) hne⟩
  · right
    rw [hret]
    refine ⟨_, rfl, fun he => absurd (hlast.mpr he) hsome, fun _ => ?_⟩
    rw [hbytes, houtput]
  · left
    rw [hret]
    have hlength := congrArg length hpending
    have hpos := length_pos_iff.mpr hsome
    rw [length_append] at hlength
    refine ⟨_, rfl, ⟨part'', next'', hnext, fun i => hroom' _ (hsizes i), hlast'.trans hlast, ?_⟩, ?_⟩
    · dsimp only
      rw [append_assoc, hpending, houtput]
    · dsimp only
      omega

/-! ## Texts of parts -/

/-- A header line: something, on one line. -/
structure HeaderLine (line : List Char) : Prop where
  some : line ≠ []
  cr : '\r' ∉ line
  lf : '\n' ∉ line
  nul : nul ∉ line

/-- The text of a part: its headers and an empty line, when it has headers, and its body. -/
def textOf (marshal : Header → List Char) (headers : List Header) (content : List Char) : List Char :=
  (if headers.isEmpty then [] else headerString marshal headers) ++ content

theorem headerString_cons (marshal : Header → List Char) (header : Header) (headers : List Header) :
    headerString marshal (header :: headers) =
      marshal header ++ crlf ++ headerString marshal headers := by
  unfold headerString
  rw [flatMap_cons, append_assoc]

variable {headers : List Header}

theorem strstr_headerString (hne : headers ≠ [])
    (hlines : ∀ header ∈ headers, HeaderLine (marshal header)) (content : List Char) :
    ∃ k, strstr (crlf ++ crlf) (headerString marshal headers ++ content) = some k ∧
      k + 4 = (headerString marshal headers).length := by
  induction headers with
  | nil => exact absurd rfl hne
  | cons header headers ih =>
    have hline := hlines header mem_cons_self
    rw [headerString_cons, append_assoc, append_assoc]
    have hskip := strstr_append_of_not_mem ['\n', '\r', '\n'] hline.cr
      (crlf ++ (headerString marshal headers ++ content))
    change strstr (crlf ++ crlf) _ = Option.map _ (strstr (crlf ++ crlf) _) at hskip
    cases headers with
    | nil =>
      have hfound : strstr (crlf ++ crlf) (crlf ++ (headerString marshal [] ++ content)) =
          some 0 := by
        simp [strstr, headerString, crlf]
      refine ⟨(marshal header).length, ?_, ?_⟩
      · rw [hskip, hfound]
        simp
      · simp [headerString, crlf]
    | cons header' headers =>
      obtain ⟨k, hk, hlength⟩ := ih (cons_ne_nil _ _) (fun h hh => hlines h (mem_cons_of_mem _ hh))
      have hline' := hlines header' (mem_cons_of_mem _ mem_cons_self)
      have hnext : ∃ c rest, headerString marshal (header' :: headers) ++ content = c :: rest ∧
          c ≠ '\r' := by
        rw [headerString_cons]
        cases hfirst : marshal header' with
        | nil => exact absurd hfirst hline'.some
        | cons c rest => exact ⟨c, _, rfl, fun hc => hline'.cr (by rw [hfirst, hc]; simp)⟩
      obtain ⟨c, rest, hnext, hc⟩ := hnext
      have hstep : strstr (crlf ++ crlf) (crlf ++ (headerString marshal (header' :: headers) ++
          content)) = some (k + 2) := by
        rw [hnext] at hk ⊢
        simp only [crlf, cons_append, nil_append] at hk ⊢
        rw [strstr, strstr, hk, if_neg (by simp [hc.symm]), if_neg (by simp)]
        rfl
      refine ⟨k + 2 + (marshal header).length, ?_, ?_⟩
      · rw [hskip, hstep]
        rfl
      · simp only [length_append, crlf, length_cons, length_nil]
        omega

theorem contentOf_textOf_iff (hlines : ∀ header ∈ headers, HeaderLine (marshal header))
    (content : List Char) : contentOf (textOf marshal headers content) = content ↔
      (headers = [] → strstr (crlf ++ crlf) content = none) := by
  unfold textOf
  cases headers with
  | nil =>
    change contentOf content = content ↔ _
    rw [contentOf]
    cases hfind : strstr (crlf ++ crlf) content with
    | none => simp
    | some k =>
      have hle : k + 4 ≤ content.length := strstr_le hfind
      simp only [forall_const, reduceCtorEq, iff_false]
      intro heq
      have := congrArg length heq
      rw [length_drop] at this
      omega
  | cons header headers =>
    obtain ⟨k, hk, hlength⟩ := strstr_headerString (cons_ne_nil header headers) hlines content
    rw [if_neg (by simp), contentOf, hk]
    dsimp only
    rw [hlength, drop_left]
    simp

theorem strstr_append_crlf {pat t : List Char} (hpat : pat ≠ []) (hcr : '\r' ∉ pat)
    (hlf : '\n' ∉ pat) (ht : strstr pat t = none) (u : List Char) :
    strstr pat (t ++ crlf ++ u) = (strstr pat u).map (· + (t.length + 2)) := by
  have hempty : strstr pat [] = none := by simp [strstr, hpat]
  have hline := strstr_append_cons hpat hlf hempty u
  rw [nil_append] at hline
  rw [append_assoc]
  change strstr pat (t ++ '\r' :: '\n' :: u) = _
  rw [strstr_append_cons hpat hcr ht, hline, Option.map_map]
  congr 1
  funext k
  simp only [Function.comp_apply, length_nil]
  omega

theorem separable_textOf (hcr : '\r' ∉ boundary) (hlf : '\n' ∉ boundary)
    (hheaders : ∀ header ∈ headers, strstr (dashBoundary boundary) (marshal header) = none)
    {content : List Char} (hcontent : strstr (dashBoundary boundary) content = none) :
    Separable boundary (textOf marshal headers content) := by
  have hpat : dashBoundary boundary ≠ [] := cons_ne_nil _ _
  have hcr' : '\r' ∉ dashBoundary boundary := by simpa [dashBoundary] using hcr
  have hlf' : '\n' ∉ dashBoundary boundary := by simpa [dashBoundary] using hlf
  have hself : strstr (dashBoundary boundary) (dashBoundary boundary) = some 0 :=
    strstr_eq_some_iff.mpr ⟨Nat.zero_le _, prefix_refl _, by omega⟩
  have hbody : strstr (dashBoundary boundary) (content ++ crlf ++ dashBoundary boundary) =
      some (content.length + 2) := by
    rw [strstr_append_crlf hpat hcr' hlf' hcontent, hself]
    simp
  have hheader : strstr (dashBoundary boundary) (headerString marshal headers ++
      (content ++ crlf ++ dashBoundary boundary)) =
        some (content.length + 2 + (headerString marshal headers).length) := by
    induction headers with
    | nil =>
      have hline := strstr_append_crlf (t := []) hpat hcr' hlf' (by simp [strstr, hpat])
        (content ++ crlf ++ dashBoundary boundary)
      rw [nil_append] at hline
      change strstr _ (crlf ++ _) = _
      rw [hline, hbody]
      rfl
    | cons header headers ih =>
      rw [headerString_cons, append_assoc,
        strstr_append_crlf hpat hcr' hlf' (hheaders header mem_cons_self),
        ih fun h hh => hheaders h (mem_cons_of_mem _ hh)]
      simp only [Option.map_some, Option.some.injEq, length_append, crlf, length_cons, length_nil]
      omega
  unfold Separable textOf
  split
  · exact hbody
  · rw [append_assoc, append_assoc, ← append_assoc content, hheader]
    simp only [Option.some.injEq, length_append]
    omega

/-! ## Round trip -/

/-- A part of a list of headers and a body. -/
abbrev Content (Header : Type) := List Header × List Char

/-- A multipart body with some parts. -/
def multipartOf (marshal : Header → List Char) (boundary : List Char)
    (contents : List (Content Header)) : MultipartBody Header :=
  (contents.map fun content => { buffer := content.2, headers := content.1 }).foldl
    (addPart marshal) (.new boundary)

/-- A part as it is kept, with its headers marshalled. -/
def partOf (marshal : Header → List Char) (content : Content Header) : Part Header where
  buffer := content.2
  headers := content.1
  headerStringBuffer :=
    if content.1.isEmpty then none else some (headerString marshal content.1)

theorem partOf_text (marshal : Header → List Char) (content : Content Header) :
    (partOf marshal content).headerStringBuffer.getD [] ++ (partOf marshal content).buffer =
      textOf marshal content.1 content.2 := by
  unfold partOf textOf
  split <;> rfl

theorem addPart_eq (marshal : Header → List Char) (body : MultipartBody Header)
    (content : Content Header) :
    body.addPart marshal { buffer := content.2, headers := content.1 } = { body with
        parts := body.parts ++ [partOf marshal content]
        expectedSize := body.expectedSize + ((if body.parts.isEmpty then 0 else 2) +
          (textOf marshal content.1 content.2).length + body.boundary.length + 4) } := by
  unfold addPart partOf textOf
  dsimp only
  split
  · simp only [nil_append, MultipartBody.mk.injEq, true_and, and_true]
    omega
  · simp only [length_append, MultipartBody.mk.injEq, true_and, and_true]
    omega

theorem multipartOf_eq (marshal : Header → List Char) (boundary : List Char) (first : Content Header)
    (rest : List (Content Header)) : multipartOf marshal boundary (first :: rest) =
      { boundary, parts := (first :: rest).map (partOf marshal)
        expectedSize := (dashBoundary boundary ++ crlf ++ textOf marshal first.1 first.2 ++
          (rest.map (partOf marshal)).flatMap (separated boundary) ++
            closing boundary).length } := by
  have hfold : ∀ (rest : List (Content Header)) (body : MultipartBody Header),
      body.parts.isEmpty = false →
      (rest.map fun content => { buffer := content.2, headers := content.1 }).foldl
        (addPart marshal) body = { body with
          parts := body.parts ++ rest.map (partOf marshal)
          expectedSize := body.expectedSize +
            ((rest.map (partOf marshal)).flatMap (separated body.boundary)).length } := by
    intro rest
    induction rest with
    | nil => simp
    | cons content rest ih =>
      intro body hparts
      have htext := congrArg length (partOf_text marshal content)
      rw [length_append] at htext
      rw [map_cons, foldl_cons, addPart_eq, ih _ (by simp)]
      simp only [hparts, Bool.false_eq_true, if_false, map_cons, flatMap_cons,
        length_append, append_assoc, singleton_append, MultipartBody.mk.injEq, true_and, and_true]
      simp only [separated, length_append, crlf, dashBoundary, length_cons, length_nil]
      omega
  unfold multipartOf
  rw [map_cons, foldl_cons, addPart_eq, hfold _ _ (by simp)]
  simp only [new, isEmpty_nil, if_true, nil_append, map_cons,
    singleton_append, MultipartBody.mk.injEq, true_and, and_true]
  simp only [length_append, length_closing, crlf, dashBoundary, length_cons, length_nil]
  omega

theorem transmit_multipartOf {first : Content Header} {rest : List (Content Header)}
    {sizes : Nat → UInt64}
    (hroom : ∀ content ∈ first :: rest, ∀ i, (closing boundary).length + (crlf ++ dashBoundary
      boundary ++ crlf).length + ((partOf marshal content).headerStringBuffer.getD []).length + 1 ≤
      (sizes i).toNat) :
    ∃ r, (multipartOf marshal boundary (first :: rest)).transmit sizes = .ok r ∧
      ((∃ content, (first :: rest).getLast? = some content ∧ content.2 = []) → r = none) ∧
      ((¬∃ content, (first :: rest).getLast? = some content ∧ content.2 = []) →
        r = some (dashBoundary boundary ++ crlf ++ textOf marshal first.1 first.2 ++
          (rest.map (partOf marshal)).flatMap (separated boundary) ++ closing boundary)) := by
  have hbody : (multipartOf marshal boundary (first :: rest)).beginSendTransfer =
      { multipartOf marshal boundary (first :: rest) with
        transferCurrentPart := partOf marshal first :: rest.map (partOf marshal) } := by
    rw [multipartOf_eq]
    unfold beginSendTransfer
    simp [partOf, Function.comp_def]
  have hpending : (multipartOf marshal boundary (first :: rest)).beginSendTransfer.pending =
      dashBoundary boundary ++ crlf ++ textOf marshal first.1 first.2 ++
        (rest.map (partOf marshal)).flatMap (separated boundary) ++ closing boundary := by
    have hfirst := partOf_text marshal first
    rw [hbody, multipartOf_eq, ← hfirst]
    simp [pending, front, separator, partOf]
  have hlast : LastEmpty (partOf marshal first :: rest.map (partOf marshal)) ↔
      ∃ content, (first :: rest).getLast? = some content ∧ content.2 = [] := by
    unfold LastEmpty
    rw [← map_cons (f := partOf marshal), List.getLast?_map]
    simp [partOf]
  have hstart : Transferring (multipartOf marshal boundary (first :: rest)).beginSendTransfer
      (partOf marshal first) (rest.map (partOf marshal)) := by
    refine ⟨by rw [hbody], ?_, .inl rfl, ?_, ?_⟩
    · rw [hbody, multipartOf_eq]
      simp
    · intro part hpart
      obtain ⟨content, -, rfl⟩ := mem_map.mp hpart
      rfl
    · rw [hpending, hbody, multipartOf_eq]
      simp
  have hsizes : ∀ i, Roomy (multipartOf marshal boundary (first :: rest)).beginSendTransfer.boundary
      (partOf marshal first :: rest.map (partOf marshal)) (sizes i).toNat := by
    intro i part hpart
    rw [hbody, multipartOf_eq]
    rw [← map_cons (f := partOf marshal)] at hpart
    obtain ⟨content, hcontent, rfl⟩ := mem_map.mp hpart
    exact hroom content hcontent i
  have hfuel : (multipartOf marshal boundary (first :: rest)).beginSendTransfer.pending.length <
      (multipartOf marshal boundary (first :: rest)).expectedSize + 1 := by
    rw [hpending, multipartOf_eq]
    exact Nat.lt_succ_self _
  obtain ⟨r, hr, hempty, hsome⟩ := loop_sending_ok
    { body := (multipartOf marshal boundary (first :: rest)).beginSendTransfer } hstart hsizes hfuel
  refine ⟨r, hr, fun h => hempty (hlast.mpr h), fun h => ?_⟩
  rw [hsome (mt hlast.mp h), hpending]
  rfl

theorem separated_eq_delimited (marshal : Header → List Char) (boundary : List Char)
    (first : Content Header) (rest : List (Content Header)) :
    dashBoundary boundary ++ crlf ++ textOf marshal first.1 first.2 ++
        (rest.map (partOf marshal)).flatMap (separated boundary) ++ closing boundary =
      dashBoundary boundary ++
        delimited boundary ((first :: rest).map fun content => textOf marshal content.1 content.2) ++
          ['-', '-', '\r', '\n'] := by
  induction rest generalizing first with
  | nil => simp [delimited, closing]
  | cons content rest ih =>
    have hnext := ih content
    have htext := partOf_text marshal content
    rw [map_cons, flatMap_cons, separated, append_assoc _ _ (Part.buffer _), htext]
    rw [delimited, map_cons, flatMap_cons]
    simp only [append_assoc, append_cancel_left_eq] at hnext ⊢
    rw [hnext]
    unfold delimited
    simp

/-- A multipart body is sent in chunks, as many bytes as are expected, and read into the bodies of its
parts. -/
def RoundTrips (marshal : Header → List Char) (parse : List Char → Option Header)
    (boundary : List Char) (contents : List (Content Header)) (sizes : Nat → UInt64) : Prop :=
  ∃ bytes, (multipartOf marshal boundary contents).transmit sizes = .ok (some bytes) ∧
    bytes.length = (multipartOf marshal boundary contents).expectedSize ∧
    ∃ body, newFromBuffer marshal parse bytes boundary = .ok body ∧
      body.parts.map Part.buffer = contents.map Prod.snd

/-- For chunks with room for the end, a separator, the headers of a part and a character, and a boundary
that is not in the headers, a multipart body is sent and read back exactly when its last part has a
body and no part without headers has an empty line in its body. -/
theorem roundTrips_iff {boundary : List Char} {contents : List (Content Header)}
    {sizes : Nat → UInt64} (hne : contents ≠ [])
    (hlines : ∀ content ∈ contents, ∀ header ∈ content.1, HeaderLine (marshal header))
    (hbodies : ∀ content ∈ contents, nul ∉ content.2 ∧
      strstr (dashBoundary boundary) content.2 = none)
    (hboundary : nul ∉ boundary ∧ '\r' ∉ boundary ∧ '\n' ∉ boundary)
    (hheaders : ∀ content ∈ contents, ∀ header ∈ content.1,
      strstr (dashBoundary boundary) (marshal header) = none)
    (hroom : ∀ content ∈ contents, ∀ i, (closing boundary).length +
      (crlf ++ dashBoundary boundary ++ crlf).length +
        ((partOf marshal content).headerStringBuffer.getD []).length + 1 ≤ (sizes i).toNat) :
    RoundTrips marshal parse boundary contents sizes ↔
      (∀ content, contents.getLast? = some content → content.2 ≠ []) ∧
        ∀ content ∈ contents, content.1 = [] → strstr (crlf ++ crlf) content.2 = none := by
  obtain ⟨first, rest, rfl⟩ := exists_cons_of_ne_nil hne
  obtain ⟨r, htransmit, hempty, hsome⟩ := transmit_multipartOf hroom
  have hcontents : ∀ content ∈ first :: rest,
      contentOf (textOf marshal content.1 content.2) = content.2 ↔
        (content.1 = [] → strstr (crlf ++ crlf) content.2 = none) :=
    fun content hcontent => contentOf_textOf_iff (hlines content hcontent) content.2
  have hnul : ∀ content ∈ first :: rest, nul ∉ textOf marshal content.1 content.2 := by
    intro content hcontent hmem
    obtain hmem | hmem := mem_append.mp hmem
    · split at hmem
      · cases hmem
      · obtain hmem | hmem := mem_append.mp hmem
        · obtain ⟨header, hheader, hmem⟩ := mem_flatMap.mp hmem
          obtain hmem | hmem := mem_append.mp hmem
          · exact (hlines content hcontent header hheader).nul hmem
          · exact absurd hmem (by decide)
        · exact absurd hmem (by decide)
    · exact (hbodies content hcontent).1 hmem
  have hseparable : ∀ text ∈ (first :: rest).map fun content => textOf marshal content.1 content.2,
      nul ∉ text ∧ Separable boundary text := by
    intro text htext
    obtain ⟨content, hcontent, rfl⟩ := mem_map.mp htext
    exact ⟨hnul content hcontent, separable_textOf hboundary.2.1 hboundary.2.2
      (hheaders content hcontent) (hbodies content hcontent).2⟩
  have htexts : ((first :: rest).map fun content => textOf marshal content.1 content.2) ≠ [] :=
    cons_ne_nil _ _
  obtain ⟨body, hread, hparts⟩ := newFromBuffer_ok marshal parse htexts
    (fun text htext => (hseparable text htext).1) hboundary.1
    (fun text htext => (hseparable text htext).2)
  rw [← separated_eq_delimited] at hread
  rw [map_map] at hparts
  have hall : (∀ content ∈ first :: rest, contentOf (textOf marshal content.1 content.2) = content.2) ↔
      body.parts.map Part.buffer = (first :: rest).map Prod.snd := by
    rw [hparts]
    exact map_inj_left.symm
  constructor
  · rintro ⟨bytes, hbytes, -, body', hread', hparts'⟩
    rw [htransmit] at hbytes
    cases hbytes
    have hlast : ¬∃ content, (first :: rest).getLast? = some content ∧ content.2 = [] :=
      fun h => by cases hempty h
    cases hsome hlast
    rw [hread] at hread'
    cases hread'
    refine ⟨fun content hcontent he => hlast ⟨content, hcontent, he⟩, fun content hcontent => ?_⟩
    exact (hcontents content hcontent).mp (hall.mpr hparts' content hcontent)
  · rintro ⟨hlast, hblank⟩
    have hr := hsome fun ⟨content, hcontent, he⟩ => hlast content hcontent he
    refine ⟨_, by rw [htransmit, hr], by rw [multipartOf_eq], body, hread, hall.mp ?_⟩
    exact fun content hcontent => (hcontents content hcontent).mpr (hblank content hcontent)

/-- `roundTrips_iff` for a part with a header and one without, in chunks of forty bytes. -/
theorem roundTrips_twoParts : RoundTrips id some ['b']
    [([['A', ':', 'x']], ['h', 'i']), ([], ['-', '\r', '\n'])] (fun _ => 40) := by
  refine (roundTrips_iff (cons_ne_nil _ _) ?_ ?_ (by decide) ?_ ?_).mpr ⟨?_, ?_⟩
  · intro content hcontent header hheader
    simp only [mem_cons, not_mem_nil, or_false] at hcontent
    obtain rfl | rfl := hcontent
    · obtain rfl := mem_singleton.mp hheader
      constructor <;> decide
    · cases hheader
  · decide
  · decide
  · intro content hcontent _
    revert content hcontent
    decide
  · decide
  · decide

/-- A part with a header and no body is not sent. -/
theorem emptyPart_not_roundTrips : HeaderLine ['A', ':', 'x'] ∧
    ¬RoundTrips id some ['b'] [([['A', ':', 'x']], [])] (fun _ => 1000) := by
  refine ⟨by constructor <;> decide, ?_⟩
  rintro ⟨bytes, hbytes, -⟩
  cases hbytes

end GrooveIp.Sip.Multipart
