import Tailcat.Resolver.Dns

/-!
# Decoding DNS messages

In front of the wire form of a name, a question or an answer, the decoder reads it and stops behind
it; where the wire form is cut short, it throws. So the TXT records of a message are found, and a
message that is cut before the end of its last answer is refused.

## Main results

* `skipName_reads`, `skipQuestion_reads`, `readAnswer_reads`: the parts of a message
* `skipName_needs`, `skipQuestion_needs`, `readAnswer_needs`: the parts when they are cut short
* `txt_decoded`: TXT responses
-/

namespace Tailcat

variable {c : Cursor UInt8} {post : List UInt8}

/-! ## What is left of a response -/

theorem word16At_append (pre : List UInt8) (v : UInt16) (post : List UInt8) :
    word16At (pre ++ (encode16 v ++ post)) pre.length = v := by
  obtain ⟨hi, lo, he, hv⟩ := encode16_eq v
  simp [word16At, he, List.getD_eq_getElem?_getD, hv]

theorem word16At_rest (c : Cursor UInt8) (k : ℕ) :
    word16At c.data (c.pos + k) = word16At c.rest k := by
  simp [word16At, Cursor.rest, List.getD_eq_getElem?_getD, List.getElem?_drop, Nat.add_assoc]

theorem length_lt_iff {k : ℕ} (hk : 0 < k) :
    c.data.length < c.pos + k ↔ c.rest.length < k := by
  rw [Cursor.length_rest]
  omega

theorem pos_lt_of_cons {x : UInt8} {bs : List UInt8} (h : c.rest = x :: bs) :
    c.pos < c.data.length := by
  have hlen := Cursor.length_rest c
  rw [h, List.length_cons] at hlen
  omega

theorem getElem_of_cons {x : UInt8} {bs : List UInt8} (h : c.rest = x :: bs)
    (hpos : c.pos < c.data.length) : c.data[c.pos] = x := by
  have hdrop := List.drop_eq_getElem_cons hpos
  rw [← Cursor.rest, h] at hdrop
  exact (List.cons.inj hdrop).1.symm

theorem length_of_cons {x : UInt8} {bs : List UInt8} (h : c.rest = x :: bs) :
    c.data.length = c.pos + 1 + bs.length := by
  have hlen := Cursor.length_rest c
  rw [h, List.length_cons] at hlen
  omega

/-! ## Names -/

/-- Two bits of an octet tell labels from pointers. -/
theorem label_octet {n : ℕ} (hpos : 0 < n) (hle : n ≤ 63) :
    UInt8.ofNat n ≠ 0 ∧ UInt8.ofNat n &&& 0xc0 = 0 ∧ (UInt8.ofNat n).toNat = n := by
  have h : ∀ n < 64, 0 < n →
      UInt8.ofNat n ≠ 0 ∧ UInt8.ofNat n &&& 0xc0 = 0 ∧ (UInt8.ofNat n).toNat = n := by decide
  exact h n (Nat.lt_succ_of_le hle) hpos

theorem skipLabel_of_nil (h : c.rest = []) : ∃ e, skipLabel () c = .error e := by
  have hlen := Cursor.length_rest c
  rw [h, List.length_nil] at hlen
  unfold skipLabel
  rw [Reader.bind_of_ok (Reader.get_apply c), if_pos (by omega)]
  exact ⟨_, rfl⟩

/-- A label is skipped if all its octets are there. -/
theorem skipLabel_of_label {n : ℕ} {bs : List UInt8} (h : c.rest = UInt8.ofNat n :: bs)
    (hpos : 0 < n) (hle : n ≤ 63) : skipLabel () c =
      if bs.length < n then .error (dnsError "invalid DNS name in TXT response")
      else .ok (.inl (), c.advance (1 + n)) := by
  obtain ⟨hzero, hbits, hnat⟩ := label_octet hpos hle
  have hlen := length_of_cons h
  rw [skipLabel_eq (pos_lt_of_cons h)]
  dsimp only
  rw [getElem_of_cons h, if_neg hzero, hbits, if_neg (by decide), hnat]
  by_cases hshort : bs.length < n
  · rw [if_pos hshort, if_pos (.inr (.inr (by omega)))]
  · have hlong : ¬ (63 < n ∨ c.data.length < c.pos + 1 + n) := by omega
    rw [if_neg hshort, if_neg fun h => h.elim (· rfl) hlong]

theorem label_reads (l : DnsLabel) : Reader.Reads (skipLabel ()) l.encode (.inl ()) := by
  intro c post h
  rw [DnsLabel.encode, List.cons_append] at h
  rw [skipLabel_of_label h l.pos l.le, if_neg (by simp), DnsLabel.encode, List.length_cons,
    Nat.add_comm]

theorem label_needs (l : DnsLabel) : Reader.Needs (skipLabel ()) l.encode := by
  intro c hpre hne
  rcases List.prefix_cons_iff.mp hpre with hnil | ⟨bs, hbs, hcut⟩
  · exact skipLabel_of_nil hnil
  · have hshort : bs.length < l.octets.length :=
      lt_of_le_of_ne hcut.length_le fun he => hne (hbs.trans (by rw [hcut.eq_of_length he]; rfl))
    exact ⟨_, by rw [skipLabel_of_label hbs l.pos l.le, if_pos hshort]⟩

theorem pointer_ne_zero {high : UInt8} (h : high &&& 0xc0 = 0xc0) : high ≠ 0 := by
  rintro rfl
  revert h
  decide

theorem ending_reads (e : DnsNameEnd) : Reader.Reads (skipLabel ()) e.encode (.inr ()) := by
  intro c post h
  cases e with
  | root =>
    have hpos := pos_lt_of_cons h
    rw [skipLabel_eq hpos]
    dsimp only
    rw [getElem_of_cons h, if_pos rfl]
    rfl
  | pointer high low hbits =>
    have hlen : c.data.length = c.pos + 1 + ([low] ++ post).length := length_of_cons h
    rw [List.length_append, List.length_singleton] at hlen
    rw [skipLabel_eq (pos_lt_of_cons h)]
    dsimp only
    rw [getElem_of_cons h, if_neg (pointer_ne_zero hbits), if_pos hbits, if_neg (by omega)]
    rfl

theorem ending_needs (e : DnsNameEnd) : Reader.Needs (skipLabel ()) e.encode := by
  intro c hpre hne
  rcases hrest : c.rest with _ | ⟨x, bs⟩
  · exact skipLabel_of_nil hrest
  cases e with
  | root =>
    have hlen := hpre.length_le
    exact absurd (hpre.eq_of_length (by simp_all [DnsNameEnd.encode])) hne
  | pointer high low hbits =>
    rw [hrest, DnsNameEnd.encode] at hpre hne
    obtain ⟨rfl, hcut⟩ := List.cons_prefix_cons.mp hpre
    have hnil : bs = [] := by
      rcases List.prefix_cons_iff.mp hcut with hnil | ⟨tail, rfl, htail⟩
      · exact hnil
      · exact absurd (by rw [List.prefix_nil.mp htail]) hne
    have hlen := length_of_cons hrest
    rw [hnil, List.length_nil] at hlen
    rw [skipLabel_eq (pos_lt_of_cons hrest)]
    dsimp only
    rw [getElem_of_cons hrest, if_neg (pointer_ne_zero hbits), if_pos hbits, if_pos (by omega)]
    exact ⟨_, rfl⟩

/-- Names are skipped label by label. -/
theorem skipName_reads (n : DnsName) : Reader.Reads skipName n.encode () := by
  obtain ⟨labels, ending⟩ := n
  unfold skipName DnsName.encode
  induction labels with
  | nil =>
    rw [Reader.loop_eq]
    exact (ending_reads ending).bind_pure (.pure ())
  | cons l labels ih =>
    rw [Reader.loop_eq]
    dsimp only at ih ⊢
    rw [List.flatMap_cons, List.append_assoc]
    exact (label_reads l).bind ih

theorem skipName_needs (n : DnsName) : Reader.Needs skipName n.encode := by
  obtain ⟨labels, ending⟩ := n
  unfold skipName DnsName.encode
  induction labels with
  | nil =>
    rw [Reader.loop_eq]
    exact (ending_needs ending).bind_pure (ending_reads ending)
  | cons l labels ih =>
    rw [Reader.loop_eq]
    dsimp only at ih ⊢
    rw [List.flatMap_cons, List.append_assoc]
    exact (label_needs l).bind (label_reads l) ih

/-! ## Questions -/

theorem skipTypeAndClass_eq (c : Cursor UInt8) : skipTypeAndClass c =
    if c.rest.length < 4 then .error (dnsError "truncated DNS question")
    else .ok ((), c.advance 4) := by
  have hiff := length_lt_iff (c := c) (show 0 < 4 by decide)
  unfold skipTypeAndClass
  rw [Reader.bind_of_ok (Reader.get_apply c)]
  by_cases hshort : c.rest.length < 4
  · rw [if_pos hshort, if_pos (hiff.mpr hshort)]
    rfl
  · rw [if_neg hshort, if_neg fun h => hshort (hiff.mp h)]
    rfl

theorem skipQuestion_reads (q : DnsQuestion) : Reader.Reads skipQuestion q.encode () := by
  refine (skipName_reads q.name).bind fun c post h => ?_
  rw [skipTypeAndClass_eq, if_neg (by rw [h]; simp), q.typeAndClass.toList_length]

theorem skipQuestion_needs (q : DnsQuestion) : Reader.Needs skipQuestion q.encode := by
  refine (skipName_needs q.name).bind (skipName_reads q.name) fun c hpre hne => ?_
  have hlen := hpre.length_le
  rw [q.typeAndClass.toList_length] at hlen
  have hshort : c.rest.length < 4 := lt_of_le_of_ne hlen fun he =>
    hne (hpre.eq_of_length (he.trans q.typeAndClass.toList_length.symm))
  exact ⟨_, by rw [skipTypeAndClass_eq, if_pos hshort]⟩

/-! ## Answers -/

/-- The character-strings of data that are within the response. -/
theorem readStrings_eq (strings : List CharacterString) (value : List UInt8) {stop : ℕ}
    (h : c.rest = strings.flatMap CharacterString.encode ++ post)
    (hstop : stop = c.pos + (strings.flatMap CharacterString.encode).length) :
    Reader.loop (readString stop) (readString_advances stop) value c =
      .ok (value ++ strings.flatMap CharacterString.octets,
        c.advance (strings.flatMap CharacterString.encode).length) := by
  induction strings generalizing c value with
  | nil =>
    rw [Reader.loop_eq, Reader.bind_of_ok (readString_of_le value hstop.le)]
    simp
  | cons s strings ih =>
    have hrest : c.rest = UInt8.ofNat s.octets.length ::
        (s.octets ++ (strings.flatMap CharacterString.encode ++ post)) := by
      rw [h, List.flatMap_cons, CharacterString.encode, List.cons_append, List.cons_append,
        List.append_assoc]
    have hpart : (UInt8.ofNat s.octets.length).toNat = s.octets.length := by
      rw [UInt8.toNat_ofNat']
      exact Nat.mod_eq_of_lt s.lt
    have hlen := length_of_cons hrest
    rw [List.length_append, List.length_append] at hlen
    rw [List.flatMap_cons, List.length_append, CharacterString.encode, List.length_cons] at hstop
    -- One string is read, and the rest begins behind it.
    have hone : readString stop value c =
        .ok (.inl (value ++ s.octets), c.advance (1 + s.octets.length)) := by
      rw [readString_of_lt value (by omega) (pos_lt_of_cons hrest)]
      dsimp only
      rw [getElem_of_cons hrest, hpart, if_neg (by omega), if_pos (by omega), hrest,
        List.drop_one, List.tail_cons, List.take_left]
    have hnext : (c.advance (1 + s.octets.length)).rest =
        strings.flatMap CharacterString.encode ++ post := by
      rw [Cursor.rest_advance, hrest, ← List.drop_drop, List.drop_one, List.tail_cons,
        List.drop_left]
    rw [Reader.loop_eq, Reader.bind_of_ok hone]
    dsimp only
    rw [ih _ hnext (by rw [Cursor.pos_advance]; omega), Cursor.advance_advance, List.flatMap_cons,
      List.flatMap_cons, List.length_append, CharacterString.encode, List.length_cons,
      List.append_assoc, Nat.add_comm 1]

/-- The type, the class and the length of the data are at their places. -/
theorem word16At_header (a : DnsAnswer) (h : c.rest = a.header ++ post) :
    word16At c.data c.pos = a.record.type ∧ word16At c.data (c.pos + 2) = a.record.klass ∧
      (word16At c.data (c.pos + 8)).toNat = a.record.data.length := by
  have htype := word16At_append [] a.record.type (encode16 a.record.klass ++ (a.ttl.toList ++
    (encode16 (UInt16.ofNat a.record.data.length) ++ post)))
  have hklass := word16At_append (encode16 a.record.type) a.record.klass (a.ttl.toList ++
    (encode16 (UInt16.ofNat a.record.data.length) ++ post))
  have hlength := word16At_append (encode16 a.record.type ++ encode16 a.record.klass ++ a.ttl.toList)
    (UInt16.ofNat a.record.data.length) post
  have hnat : (UInt16.ofNat a.record.data.length).toNat = a.record.data.length := by
    rw [UInt16.toNat_ofNat']
    exact Nat.mod_eq_of_lt a.record.length_data_lt
  simp only [List.nil_append, List.length_nil, List.length_append, length_encode16,
    List.Vector.toList_length, List.append_assoc, Nat.reduceAdd] at htype hklass hlength
  have hrest : c.rest = encode16 a.record.type ++ (encode16 a.record.klass ++ (a.ttl.toList ++
      (encode16 (UInt16.ofNat a.record.data.length) ++ post))) := by
    rw [h, DnsAnswer.header]
    simp only [List.append_assoc]
  rw [← hrest] at htype hklass hlength
  rw [word16At_rest, word16At_rest, hlength]
  exact ⟨(word16At_rest c 0).trans htype, hklass, hnat⟩

theorem readTypeAndData_reads (a : DnsAnswer) (result : List (List UInt8)) :
    Reader.Reads (readTypeAndData result) (a.header ++ a.record.data)
      (result ++ a.record.payload.toList) := by
  intro c post h
  rw [List.append_assoc] at h
  obtain ⟨htype, hklass, hlength⟩ := word16At_header a h
  have hlen : c.rest.length = 10 + (a.record.data.length + post.length) := by
    rw [h, List.length_append, List.length_append, DnsAnswer.length_header]
  have hdata : (c.advance 10).rest = a.record.data ++ post := by
    rw [Cursor.rest_advance, h, List.drop_left' a.length_header]
  rw [Cursor.length_rest] at hlen
  rw [readTypeAndData_eq, if_neg (by omega)]
  dsimp only
  rw [hlength, if_neg (by omega), htype, hklass, List.length_append, DnsAnswer.length_header]
  -- The strings of a TXT record are read; the data of another record is passed over.
  rcases hrecord : a.record with ⟨strings, hstrings⟩ | ⟨type, klass, data, hsize, hne⟩
  · rw [hrecord] at hdata
    have hread : readStrings (c.pos + 10 + (strings.flatMap CharacterString.encode).length)
        (c.advance 10) = _ := readStrings_eq strings [] hdata rfl
    rw [if_pos ⟨rfl, rfl⟩]
    refine (Reader.bind_of_ok hread).trans ?_
    rw [Cursor.advance_advance]
    rfl
  · rw [if_neg (by exact hne)]
    simp [DnsRecord.payload]

theorem readTypeAndData_needs (a : DnsAnswer) (result : List (List UInt8)) :
    Reader.Needs (readTypeAndData result) (a.header ++ a.record.data) := by
  intro c hpre hne
  have hlt : c.rest.length < 10 + a.record.data.length := by
    have hle := hpre.length_le
    rw [List.length_append, DnsAnswer.length_header] at hle
    refine lt_of_le_of_ne hle fun he => hne (hpre.eq_of_length ?_)
    rw [he, List.length_append, DnsAnswer.length_header]
  rw [readTypeAndData_eq]
  by_cases hshort : c.rest.length < 10
  · rw [if_pos ((length_lt_iff (by decide)).mpr hshort)]
    exact ⟨_, rfl⟩
  rw [if_neg fun h => hshort ((length_lt_iff (by decide)).mp h)]
  -- The header is whole, so that it is the data that are cut short.
  obtain ⟨post, hpost⟩ : a.header <+: c.rest :=
    List.prefix_of_prefix_length_le (List.prefix_append _ _) hpre
      (by rw [DnsAnswer.length_header]; omega)
  obtain ⟨-, -, hlength⟩ := word16At_header a hpost.symm
  dsimp only
  rw [hlength, if_pos (by rw [Nat.add_assoc, length_lt_iff (by omega)]; exact hlt)]
  exact ⟨_, rfl⟩

theorem readAnswer_reads (a : DnsAnswer) (result : List (List UInt8)) :
    Reader.Reads (readAnswer result) a.encode (result ++ a.record.payload.toList) :=
  (skipName_reads a.name).bind (readTypeAndData_reads a result)

theorem readAnswer_needs (a : DnsAnswer) (result : List (List UInt8)) :
    Reader.Needs (readAnswer result) a.encode :=
  (skipName_needs a.name).bind (skipName_reads a.name) (readTypeAndData_needs a result)

/-! ## Messages -/

/-- The counts are at their places. -/
theorem word16At_messageHeader (m : DnsMessage) (post : List UInt8) :
    (word16At (m.header ++ post) 4).toNat = m.questions.length ∧
      (word16At (m.header ++ post) 6).toNat = m.answers.length := by
  have hquestions := word16At_append m.idAndFlags.toList (UInt16.ofNat m.questions.length)
    (encode16 (UInt16.ofNat m.answers.length) ++ (m.otherCounts.toList ++ post))
  have hanswers := word16At_append
    (m.idAndFlags.toList ++ encode16 (UInt16.ofNat m.questions.length))
    (UInt16.ofNat m.answers.length) (m.otherCounts.toList ++ post)
  simp only [List.length_append, length_encode16, List.Vector.toList_length, List.append_assoc,
    Nat.reduceAdd] at hquestions hanswers
  rw [DnsMessage.header]
  simp only [List.append_assoc]
  rw [hquestions, hanswers, UInt16.toNat_ofNat', UInt16.toNat_ofNat']
  exact ⟨Nat.mod_eq_of_lt m.questions_lt, Nat.mod_eq_of_lt m.answers_lt⟩

/-- Behind the header of a message, its questions and its answers are read. -/
theorem readSections_eq (m : DnsMessage) (post : List UInt8) :
    readSections ⟨m.header ++ post, 12⟩ =
      (Reader.times (fun _ => skipQuestion) m.questions.length () >>= fun _ =>
        Reader.times readAnswer m.answers.length [] : DnsM _) ⟨m.header ++ post, 12⟩ := by
  obtain ⟨hquestions, hanswers⟩ := word16At_messageHeader m post
  have hlen : (m.header ++ post).length = 12 + post.length := by
    rw [List.length_append, DnsMessage.length_header]
  have hfour : ¬ (m.header ++ post).length < 4 + 2 := by omega
  have hsix : ¬ (m.header ++ post).length < 6 + 2 := by omega
  unfold readSections
  rw [Reader.bind_of_ok (by rw [read16_eq, if_neg hfour]),
    Reader.bind_of_ok (by rw [read16_eq, if_neg hsix])]
  dsimp only
  rw [hquestions, hanswers]

theorem payloads_eq_foldl (answers : List DnsAnswer) (result : List (List UInt8)) :
    answers.foldl (fun result a => result ++ a.record.payload.toList) result =
      result ++ answers.filterMap fun a => a.record.payload := by
  induction answers generalizing result with
  | nil => simp
  | cons a answers ih =>
    rw [List.foldl_cons, ih, List.filterMap_cons]
    cases a.record.payload <;> simp

theorem sections_reads (m : DnsMessage) :
    Reader.Reads (Reader.times (fun _ => skipQuestion) m.questions.length () >>= fun _ =>
      Reader.times readAnswer m.answers.length []) m.sections m.payloads := by
  have hanswers := Reader.Reads.times readAnswer_reads m.answers []
  rw [payloads_eq_foldl] at hanswers
  exact (Reader.Reads.times (fun q _ => skipQuestion_reads q) m.questions ()).bind hanswers

theorem sections_needs (m : DnsMessage) :
    Reader.Needs (Reader.times (fun _ => skipQuestion) m.questions.length () >>= fun _ =>
      Reader.times readAnswer m.answers.length []) m.sections :=
  (Reader.Needs.times (fun q _ => skipQuestion_needs q) (fun q _ => skipQuestion_reads q)
    m.questions ()).bind (Reader.Reads.times (fun q _ => skipQuestion_reads q) m.questions ())
    (Reader.Needs.times readAnswer_needs readAnswer_reads m.answers [])

section

variable {resQuery : List UInt8 → Option DnsResponse} {dnsName : List UInt8} {r : DnsResponse}

theorem DnsResponse.length_octets (r : DnsResponse) : r.octets.length = r.size := by
  rw [octets, List.length_take, List.Vector.toList_length, Nat.min_eq_left r.size_le]

theorem queryTxtRecords_of_message (h : resQuery dnsName = some r) (m : DnsMessage)
    (hr : r.octets = m.encode) : queryTxtRecords resQuery dnsName = .ok m.payloads := by
  have hsize := r.length_octets
  rw [hr, DnsMessage.encode, DnsMessage.front, List.length_append, List.length_append,
    DnsMessage.length_header] at hsize
  have hread := sections_reads m ⟨m.header ++ (m.sections ++ m.others), 12⟩ m.others
    (List.drop_left' m.length_header)
  unfold queryTxtRecords
  rw [h]
  dsimp only
  rw [if_neg (by omega), hr, DnsMessage.encode, DnsMessage.front, List.append_assoc,
    readSections_eq, hread]
  rfl

/-- A response that ends before the last answer does. -/
theorem queryTxtRecords_of_cut (h : resQuery dnsName = some r) (m : DnsMessage) {n : ℕ}
    (hn : n < m.front.length) (hr : r.octets = m.encode.take n) :
    ∃ e, queryTxtRecords resQuery dnsName = .error (.thrown e) := by
  have herror : ∃ e, queryTxtRecords resQuery dnsName = .error e := by
    have hcut : r.octets = m.front.take n := by
      rw [hr, DnsMessage.encode, List.take_append_of_le_length hn.le]
    have hsize := r.length_octets
    rw [hcut, List.length_take_of_le hn.le] at hsize
    unfold queryTxtRecords
    rw [h]
    dsimp only
    by_cases hshort : r.size < 12
    · rw [if_pos hshort]
      exact ⟨_, rfl⟩
    -- The header is whole, so that it is the sections that are cut short.
    have hfront : m.front.take n = m.header ++ m.sections.take (n - 12) := by
      rw [DnsMessage.front, List.take_append, DnsMessage.length_header,
        List.take_of_length_le (by rw [DnsMessage.length_header]; omega)]
    have hrest : Cursor.rest ⟨m.header ++ m.sections.take (n - 12), 12⟩ =
        m.sections.take (n - 12) := List.drop_left' m.length_header
    have hne : m.sections.take (n - 12) ≠ m.sections := by
      intro heq
      rw [DnsMessage.front, List.length_append, DnsMessage.length_header] at hn
      have hlen := congrArg List.length heq
      rw [List.length_take] at hlen
      omega
    obtain ⟨e, he⟩ := sections_needs m ⟨m.header ++ m.sections.take (n - 12), 12⟩
      (by rw [hrest]; exact List.take_prefix _ _) (by rwa [hrest])
    rw [if_neg hshort, hcut, hfront, readSections_eq, he]
    exact ⟨e, rfl⟩
  obtain ⟨e, he⟩ := herror
  cases e with
  | thrown e => exact ⟨e, he⟩
  | asserted => exact absurd he (queryTxtRecords_ne_asserted resQuery dnsName)

end

/-- **TXT responses.** No response is read beyond its end. Of a message the character-strings of the
TXT records in the Internet class are returned, in order and each record's as one text, and a
message that is cut before the end of its last answer is refused. -/
theorem txt_decoded (resQuery : List UInt8 → Option DnsResponse) (dnsName : List UInt8) :
    queryTxtRecords resQuery dnsName ≠ .error .asserted ∧
      ∀ r, resQuery dnsName = some r →
        (∀ m : DnsMessage, r.octets = m.encode →
          queryTxtRecords resQuery dnsName = .ok m.payloads) ∧
        ∀ (m : DnsMessage) (n : ℕ), n < m.front.length → r.octets = m.encode.take n →
          ∃ e, queryTxtRecords resQuery dnsName = .error (.thrown e) :=
  ⟨queryTxtRecords_ne_asserted resQuery dnsName, fun _ h =>
    ⟨fun m => queryTxtRecords_of_message h m, fun m _ => queryTxtRecords_of_cut h m⟩⟩

/-- The response that consists of the octets. -/
def DnsResponse.ofOctets (octets : List UInt8) (h : octets.length ≤ 65536) : DnsResponse where
  buffer := Octets.ofList (octets ++ List.replicate (65536 - octets.length) 0)
    (by rw [List.length_append, List.length_replicate]; omega)
  size := octets.length
  size_le := h

theorem DnsResponse.octets_ofOctets {octets : List UInt8} (h : octets.length ≤ 65536) :
    (DnsResponse.ofOctets octets h).octets = octets := List.take_left

/-- A question, and as answers an alias and a TXT record of two strings, with pointers as names. -/
def exampleMessage : DnsMessage where
  idAndFlags := Octets.zero 4
  questions := [⟨⟨[⟨ascii "cat", by decide, by decide⟩], .root⟩, Octets.zero 4⟩]
  questions_lt := by decide
  answers := [
    ⟨⟨[], .pointer 0xc0 0x0c (by decide)⟩, Octets.zero 4,
      .other 5 nsCIn [0] (by decide) (by decide)⟩,
    ⟨⟨[], .pointer 0xc0 0x0c (by decide)⟩, Octets.zero 4,
      .txt [⟨ascii "tailcat=", by decide⟩, ⟨ascii "tc", by decide⟩] (by decide)⟩]
  answers_lt := by decide
  otherCounts := Octets.zero 4
  others := []

/-- The two strings are one text, and a response that ends in them is refused. -/
theorem txt_decoded_example : ∃ whole cut : DnsResponse,
    whole.octets = exampleMessage.encode ∧ cut.octets = exampleMessage.encode.take 50 ∧
      queryTxtRecords (fun _ => some whole) (ascii "cat") = .ok [ascii "tailcat=tc"] ∧
      ∃ e, queryTxtRecords (fun _ => some cut) (ascii "cat") = .error (.thrown e) := by
  have hwhole := DnsResponse.octets_ofOctets
    (show exampleMessage.encode.length ≤ 65536 by decide +kernel)
  have hcut := DnsResponse.octets_ofOctets 
    (show (exampleMessage.encode.take 50).length ≤ 65536 by decide +kernel)
  refine ⟨_, _, hwhole, hcut, ?_, ?_⟩
  · obtain ⟨-, h⟩ := txt_decoded (fun _ => some _) (ascii "cat")
    exact (h _ rfl).1 exampleMessage hwhole
  · obtain ⟨-, h⟩ := txt_decoded (fun _ => some _) (ascii "cat")
    exact (h _ rfl).2 exampleMessage 50 (by decide +kernel) hcut

end Tailcat
