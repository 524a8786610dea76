import Lexis.Proofs.Source.Utf8

/-!
# Well-formed and ill-formed bytes

The bytes that can follow a lead in the encoding of a character are the runs that decoding takes
(`Utf8.Follows`): every encoding has one behind its lead, and every one can be completed to an
encoding. So wherever the encoding of a character stands, decoding reads that character
(`Utf8.decode_encodeChar_append`). Where none stands, it takes as many bytes as can start a
character, or else a single one (`Utf8.IsIllFormed`); what is taken is determined by that
(`Utf8.decode_of_isIllFormed`).
-/

namespace Lexis.Utf8

/-! ## Bytes behind a lead -/

/-- `run` can follow `lead` in the encoding of a character, with more bytes behind it or without. -/
structure Follows (lead : UInt8) (run : List UInt8) : Prop where
  length_le : run.length ≤ trailing lead
  second : ∀ b ∈ run.head?, isSecond lead b = true
  continuation : ∀ b ∈ run, isContinuation b = true

theorem length_continuationRun_le (lead : UInt8) (rest : List UInt8) :
    (continuationRun lead rest).length ≤ trailing lead := by
  have htake := List.length_take_le (trailing lead) rest
  unfold continuationRun
  split
  · exact Nat.zero_le _
  · next second more hmore =>
    have hwhile := (List.takeWhile_prefix (l := more) isContinuation).length_le
    rw [hmore, List.length_cons] at htake
    split
    · rw [List.length_cons]
      omega
    · exact Nat.zero_le _

theorem Follows.cons {lead second : UInt8} {more : List UInt8}
    (hlength : more.length < trailing lead) (hsecond : isSecond lead second = true)
    (hmore : ∀ b ∈ more, isContinuation b = true) : Follows lead (second :: more) where
  length_le := hlength
  second := by
    rintro b ⟨⟩
    exact hsecond
  continuation := List.forall_mem_cons.2 ⟨isContinuation_of_isSecond hsecond, hmore⟩

/-- What decoding takes behind a lead can follow it. -/
theorem follows_continuationRun (lead : UInt8) (rest : List UInt8) :
    Follows lead (continuationRun lead rest) := by
  have hlength := length_continuationRun_le lead rest
  cases hrun : continuationRun lead rest with
  | nil => exact ⟨Nat.zero_le _, (fun b hb => by cases hb), (fun b hb => by cases hb)⟩
  | cons second more =>
    obtain ⟨hsecond, hmore⟩ := of_continuationRun_eq_cons hrun
    rw [hrun] at hlength
    exact .cons hlength hsecond hmore

namespace Follows

variable {lead : UInt8} {run longer rest : List UInt8}

theorem mono (h : Follows lead longer) (hbegin : run <+: longer) : Follows lead run where
  length_le := Nat.le_trans hbegin.length_le h.length_le
  second := by
    intro b hb
    obtain ⟨more, rfl⟩ := hbegin
    refine h.second b ?_
    rw [List.head?_append, hb]
    rfl
  continuation := fun b hb => h.continuation b (hbegin.subset hb)

/-- Whatever can follow the lead is taken. -/
theorem isPrefix_continuationRun (h : Follows lead run) (hbegin : run <+: rest) :
    run <+: continuationRun lead rest := by
  obtain ⟨more, rfl⟩ := hbegin
  cases run with
  | nil => exact List.nil_prefix
  | cons second run =>
    obtain ⟨n, hn⟩ := Nat.exists_eq_add_of_le' (Nat.le_trans (Nat.le_add_left 1 _) h.length_le)
    have hlength : run.length ≤ n := by
      have hle := h.length_le
      rw [hn, List.length_cons] at hle
      omega
    have hcontinuation : ∀ b ∈ run, isContinuation b = true :=
      fun b hb => h.continuation b (List.mem_cons_of_mem _ hb)
    have htake : ((second :: run) ++ more).take (trailing lead) =
        second :: (run ++ more.take (n - run.length)) := by
      rw [hn, List.cons_append, List.take_succ_cons, List.take_append,
        List.take_of_length_le hlength]
    rw [continuationRun, htake]
    dsimp only
    rw [if_pos (h.second second rfl), List.takeWhile_append_of_pos hcontinuation]
    exact List.prefix_append (second :: run) _

/-- A run that is as long as the lead asks for is taken, and nothing more. -/
theorem continuationRun_eq (h : Follows lead run) (hlength : run.length = trailing lead)
    (rest : List UInt8) : continuationRun lead (run ++ rest) = run := by
  have hrun := h.isPrefix_continuationRun (List.prefix_append run rest)
  refine (hrun.eq_of_length_le ?_).symm
  rw [hlength]
  exact length_continuationRun_le lead _

/-- A run that is as long as the lead asks for makes up the encoding of a character with it. -/
theorem encodeChar_assemble (h : Follows lead run) (hlength : run.length = trailing lead)
    (hne : run ≠ []) : String.utf8EncodeChar (assemble lead run) = lead :: run := by
  have hrun := h.continuationRun_eq hlength []
  rw [List.append_nil] at hrun
  have hencode := Utf8.encodeChar_assemble (by rw [hrun]; exact hlength) (by rw [hrun]; exact hne)
  rwa [hrun] at hencode

/-- What can follow a lead does so in the encoding of some character. -/
theorem exists_encodeChar (h : Follows lead run) (hne : run ≠ []) :
    ∃ c, lead :: run <+: String.utf8EncodeChar c := by
  -- the bytes that are missing can be any continuations
  have hfull : Follows lead (run ++ List.replicate (trailing lead - run.length) 0x80) := by
    constructor
    · have hle := h.length_le
      rw [List.length_append, List.length_replicate]
      omega
    · rw [List.head?_append_of_ne_nil run hne]
      exact h.second
    · intro b hb
      rcases List.mem_append.1 hb with hb | hb
      · exact h.continuation b hb
      · rw [List.eq_of_mem_replicate hb]
        rfl
  have hlength : (run ++ List.replicate (trailing lead - run.length) 0x80).length =
      trailing lead := by
    have hle := h.length_le
    rw [List.length_append, List.length_replicate]
    omega
  refine ⟨assemble lead (run ++ List.replicate (trailing lead - run.length) 0x80), ?_⟩
  rw [hfull.encodeChar_assemble hlength (by simp [hne]), List.prefix_cons_inj]
  exact List.prefix_append run _

end Follows

/-! ## Encodings -/

theorem isSecond_of_bounds {lead b : UInt8} (h : 0x80 ≤ b.toNat ∧ b.toNat ≤ 0xBF)
    (hE0 : lead.toNat = 0xE0 → 0xA0 ≤ b.toNat) (hED : lead.toNat = 0xED → b.toNat ≤ 0x9F)
    (hF0 : lead.toNat = 0xF0 → 0x90 ≤ b.toNat) (hF4 : lead.toNat = 0xF4 → b.toNat ≤ 0x8F) :
    isSecond lead b = true := by
  unfold isSecond
  rw [isContinuation_iff.2 h, Bool.true_and]
  split_ifs with hlead hlead hlead hlead
  · exact decide_eq_true (hE0 hlead)
  · exact decide_eq_true (hED hlead)
  · exact decide_eq_true (hF0 hlead)
  · exact decide_eq_true (hF4 hlead)
  · rfl

/-- Characters with the same encoding are the same. -/
theorem encodeChar_injective : Function.Injective String.utf8EncodeChar := by
  intro c d h
  have hc := @ByteArray.utf8DecodeChar?_utf8EncodeChar_append .empty c
  rw [h, ByteArray.utf8DecodeChar?_utf8EncodeChar_append] at hc
  exact (Option.some.inj hc).symm

/-- Behind the lead of a character of several bytes are as many as it asks for. -/
theorem follows_of_encodeChar {c : Char} {lead : UInt8} {run : List UInt8}
    (h : String.utf8EncodeChar c = lead :: run) (hlead : 0x80 ≤ lead.toNat) :
    Follows lead run ∧ run.length = trailing lead ∧ run ≠ [] := by
  have hvalid : c.val.toNat < 0xD800 ∨ 0xDFFF < c.val.toNat ∧ c.val.toNat < 0x110000 := c.valid
  have hbyte (n : Nat) : (UInt8.ofNat n).toNat = n % 256 := UInt8.toNat_ofNat'
  have hcontinuation (n : Nat) : isContinuation (UInt8.ofNat (n % 64 + 128)) = true := by
    rw [isContinuation_iff, hbyte]
    omega
  unfold String.utf8EncodeChar at h
  dsimp only at h
  split_ifs at h with hone htwo hthree
  · cases h
    rw [hbyte] at hlead
    omega
  · obtain ⟨rfl, rfl⟩ := List.cons.inj h
    have htrailing : trailing (UInt8.ofNat (c.val.toNat / 64 % 32 + 192)) = 1 := by
      rw [trailing, hbyte, if_pos (by omega)]
    refine ⟨.cons ?_ ?_ ?_, htrailing.symm, List.cons_ne_nil _ _⟩
    · rw [htrailing]
      exact Nat.lt_succ_self _
    · apply isSecond_of_bounds
      all_goals
        simp only [hbyte]
        omega
    · simp
  · obtain ⟨rfl, rfl⟩ := List.cons.inj h
    have htrailing : trailing (UInt8.ofNat (c.val.toNat / 4096 % 16 + 224)) = 2 := by
      rw [trailing, hbyte, if_neg (by omega), if_pos (by omega)]
    refine ⟨.cons ?_ ?_ ?_, htrailing.symm, List.cons_ne_nil _ _⟩
    · rw [htrailing]
      exact Nat.lt_succ_self _
    -- below `0x800` there would be two bytes, and the surrogates are no characters
    · apply isSecond_of_bounds
      all_goals
        simp only [hbyte]
        omega
    · simp only [List.mem_singleton, forall_eq, hcontinuation]
  · obtain ⟨rfl, rfl⟩ := List.cons.inj h
    have htrailing : trailing (UInt8.ofNat (c.val.toNat / 262144 % 8 + 240)) = 3 := by
      rw [trailing, hbyte, if_neg (by omega), if_neg (by omega), if_pos (by omega)]
    refine ⟨.cons ?_ ?_ ?_, htrailing.symm, List.cons_ne_nil _ _⟩
    · rw [htrailing]
      exact Nat.lt_succ_self _
    · apply isSecond_of_bounds
      all_goals
        simp only [hbyte]
        omega
    · simp only [List.mem_cons, List.not_mem_nil, or_false, forall_eq_or_imp, forall_eq,
        hcontinuation, and_self]

/-- What can start a character has a lead, and what can follow it. -/
theorem follows_of_isPrefix {c : Char} {lead : UInt8} {run : List UInt8}
    (h : lead :: run <+: String.utf8EncodeChar c) (hlead : 0x80 ≤ lead.toNat) :
    Follows lead run := by
  obtain ⟨more, hmore⟩ := h
  exact (follows_of_encodeChar hmore.symm hlead).1.mono (List.prefix_append run more)

/-- Where the encoding of a character stands, that character is read. -/
theorem decodeOne_of_encodeChar {c : Char} {lead : UInt8} {run : List UInt8}
    (h : String.utf8EncodeChar c = lead :: run) (more : List UInt8) :
    decodeOne lead (run ++ more) = (.valid c, run.length) := by
  by_cases hlead : lead.toNat < 0x80
  · have hc : c.toNat = lead.toNat := toNat_of_mem_encodeChar (by rw [h]; simp) hlead
    rw [encodeChar_of_lt (by omega)] at h
    obtain ⟨-, rfl⟩ := List.cons.inj h
    rw [decodeOne, if_pos hlead, ← hc, Char.ofNat_toNat]
    rfl
  · obtain ⟨hfollows, hlength, hne⟩ := follows_of_encodeChar h (Nat.not_lt.1 hlead)
    have hrun : continuationRun lead (run ++ more) = run := hfollows.continuationRun_eq hlength more
    have hc : assemble lead run = c :=
      encodeChar_injective ((hfollows.encodeChar_assemble hlength hne).trans h.symm)
    rw [decodeOne, if_neg hlead]
    dsimp only
    rw [hrun, if_pos ⟨hlength, hne⟩, hc]

theorem decode_encodeChar_append (c : Char) (more : List UInt8) :
    decode (String.utf8EncodeChar c ++ more) = .valid c :: decode more := by
  cases hencode : String.utf8EncodeChar c with
  | nil => exact absurd hencode String.utf8EncodeChar_ne_nil
  | cons lead run =>
    rw [List.cons_append, decode, decodeOne_of_encodeChar hencode]
    dsimp only
    rw [List.drop_left]

/-- Characters that are encoded well are read, whatever follows them. -/
theorem decode_bytesOf_append (text : List Char) (more : List UInt8) :
    decode (bytesOf text ++ more) = text.map .valid ++ decode more := by
  induction text with
  | nil => rfl
  | cons c text ih =>
    rw [bytesOf, List.flatMap_cons, List.append_assoc, decode_encodeChar_append]
    exact congrArg (SourceChar.valid c :: ·) ih

/-! ## Bytes that are no UTF-8 -/

/-- Where `bytes` stand, with `rest` behind them, there is no character, and of the bytes there they
are as many as can start one, or else the first. -/
structure IsIllFormed (bytes rest : List UInt8) : Prop where
  ne_nil : bytes ≠ []
  no_char : ∀ c, ¬ String.utf8EncodeChar c <+: bytes ++ rest
  starts : bytes.length = 1 ∨ ∃ c, bytes <+: String.utf8EncodeChar c
  longest : ∀ b ∈ rest.head?, ∀ c, ¬ bytes ++ [b] <+: String.utf8EncodeChar c

/-- Bytes that are no UTF-8 are at most three, as all four of a character would be that character.
-/
theorem IsIllFormed.length_le {bytes rest : List UInt8} (h : IsIllFormed bytes rest) :
    bytes.length ≤ 3 := by
  rcases h.starts with hone | ⟨c, hbegin⟩
  · omega
  · have hle := hbegin.length_le
    have hfour := c.utf8Size_le_four
    rw [String.length_utf8EncodeChar] at hle
    by_contra hlong
    have hwhole : bytes = String.utf8EncodeChar c :=
      hbegin.eq_of_length (by rw [String.length_utf8EncodeChar]; omega)
    exact h.no_char c (hwhole ▸ List.prefix_append bytes rest)

/-- What is replaced is ill-formed. -/
theorem isIllFormed_of_decodeOne {lead : UInt8} {rest bytes : List UInt8} {used : Nat}
    (h : decodeOne lead rest = (.replaced bytes, used)) :
    IsIllFormed bytes (rest.drop used) := by
  have hbytes := bytes_decodeOne lead rest
  rw [h] at hbytes
  have hwhole : bytes ++ rest.drop used = lead :: rest := by
    show (SourceChar.replaced bytes).bytes ++ rest.drop used = lead :: rest
    rw [hbytes, List.cons_append, List.take_append_drop]
  have hone := h
  unfold decodeOne at h
  split at h
  · cases h
  next hlead =>
  dsimp only at h
  split at h
  · cases h
  obtain ⟨⟨⟩, rfl⟩ := Prod.mk.inj h
  refine ⟨List.cons_ne_nil _ _, ?_, ?_, ?_⟩
  · intro c hbegin
    rw [hwhole] at hbegin
    cases hencode : String.utf8EncodeChar c with
    | nil => exact String.utf8EncodeChar_ne_nil hencode
    | cons first run =>
      rw [hencode] at hbegin
      obtain ⟨rfl, more, rfl⟩ := List.cons_prefix_cons.1 hbegin
      cases hone.symm.trans (decodeOne_of_encodeChar hencode more)
  · by_cases hnil : continuationRun lead rest = []
    · rw [hnil]
      exact .inl rfl
    · exact .inr ((follows_continuationRun lead rest).exists_encodeChar hnil)
  · intro b hb c hbegin
    -- a byte more would have been taken
    have hnext : continuationRun lead rest ++ [b] <+: rest := by
      obtain ⟨later, hlater⟩ := List.head?_eq_some_iff.1 hb
      rw [hlater] at hwhole
      exact ⟨later, by rw [List.append_assoc]; exact (List.cons.inj hwhole).2⟩
    have hfollows : Follows lead (continuationRun lead rest ++ [b]) :=
      follows_of_isPrefix hbegin (Nat.not_lt.1 hlead)
    have hlonger := hfollows.isPrefix_continuationRun hnext
    have hle := hlonger.length_le
    rw [List.length_append, List.length_singleton] at hle
    omega

/-- Ill-formed bytes are replaced. -/
theorem decode_of_isIllFormed {bytes rest : List UInt8} (h : IsIllFormed bytes rest) :
    decode (bytes ++ rest) = .replaced bytes :: decode rest := by
  obtain ⟨lead, run, rfl⟩ := List.exists_cons_of_ne_nil h.ne_nil
  have hlead : ¬ lead.toNat < 0x80 := by
    intro hlt
    have hbytes := bytes_decodeOne lead (run ++ rest)
    rw [decodeOne, if_pos hlt] at hbytes
    refine h.no_char (Char.ofNat lead.toNat) ⟨run ++ rest, ?_⟩
    have hencode : String.utf8EncodeChar (Char.ofNat lead.toNat) = [lead] := hbytes
    rw [hencode]
    rfl
  have hfollows : Follows lead run := by
    rcases h.starts with hone | ⟨c, hbegin⟩
    · have hnil : run = [] := List.length_eq_zero_iff.1 (Nat.succ.inj hone)
      rw [hnil]
      exact (follows_continuationRun lead []).mono List.nil_prefix
    · exact follows_of_isPrefix hbegin (Nat.not_lt.1 hlead)
  have hrun : continuationRun lead (run ++ rest) = run := by
    obtain ⟨more, hmore⟩ := hfollows.isPrefix_continuationRun (List.prefix_append run rest)
    cases more with
    | nil => rw [← hmore, List.append_nil]
    | cons b more =>
      -- a byte more could start a character too
      have hlonger : Follows lead (run ++ [b]) := by
        refine (follows_continuationRun lead (run ++ rest)).mono ⟨more, ?_⟩
        rw [← hmore, List.append_assoc]
        rfl
      have hhead : b ∈ rest.head? := by
        have hbegin := continuationRun_isPrefix lead (run ++ rest)
        rw [← hmore, List.prefix_append_right_inj] at hbegin
        obtain ⟨rest', rfl⟩ := hbegin
        rfl
      obtain ⟨c, hc⟩ := hlonger.exists_encodeChar (by simp)
      exact absurd hc (h.longest b hhead c)
  have hincomplete : ¬ (run.length = trailing lead ∧ run ≠ []) := by
    rintro ⟨hlength, hne⟩
    refine h.no_char (assemble lead run) ?_
    rw [hfollows.encodeChar_assemble hlength hne]
    exact List.prefix_append _ _
  rw [List.cons_append, decode, decodeOne, if_neg hlead]
  dsimp only
  rw [hrun, if_neg hincomplete]
  dsimp only
  rw [List.drop_left]

end Lexis.Utf8
