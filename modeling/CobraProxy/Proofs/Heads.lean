import CobraProxy.Lib.Fallible
import CobraProxy.Spec.Reading

/-! Reading a request head from a stream, and taking the ingress headers out of it, over any parser of
heads that decides by what it has read. -/

namespace Cobra

open Text Program Prog Fallible

/-- A parser of heads that goes by the header block alone: more bytes change no verdict, and none are needed. -/
structure PrefixParser (httparse : Httparse) : Prop where
  append {b : Bytes} (more : Bytes) : httparse b ≠ .ok none → httparse (b ++ more) = httparse b
  headerLen_le {b : Bytes} {head : HttpHead} : httparse b = .ok (some head) → head.headerLen ≤ b.length
  block {b : Bytes} {head : HttpHead} : httparse b = .ok (some head) →
    httparse (b.take head.headerLen) = .ok (some head)

section Parsing

variable {httparse : Httparse} {b b' : Bytes}

theorem parseProxyRequest_congr (h : httparse b = httparse b') :
    parseProxyRequest httparse b = parseProxyRequest httparse b' := by
  rw [parseProxyRequest, parseProxyRequest, h]

theorem parseProxyRequest_incomplete (h : httparse b = .ok none) : parseProxyRequest httparse b = .ok none := by
  rw [parseProxyRequest, h]
  rfl

theorem parseProxyRequest_error {e : String} (h : httparse b = .error e) :
    parseProxyRequest httparse b = .error ("malformed HTTP request: " ++ e) := by
  rw [parseProxyRequest, h]
  rfl

theorem parseProxyRequest_eq_some {request : ParsedProxyRequest} (h : parseProxyRequest httparse b = .ok (some request)) :
    ∃ head, httparse b = .ok (some head) ∧ request.headerLen = head.headerLen := by
  cases hparse : httparse b with
  | error e =>
    rw [parseProxyRequest_error hparse] at h
    cases h
  | ok result =>
    cases result with
    | none =>
      rw [parseProxyRequest_incomplete hparse] at h
      cases h
    | some head =>
      refine ⟨head, rfl, ?_⟩
      simp only [parseProxyRequest, hparse, Except.mapError, ok_bind, throw_eq_error, error_bind,
        ite_error_eq_ok] at h
      obtain ⟨-, h⟩ := h
      split at h
      · simp only [bind_eq_ok, pure_eq_ok, Except.ok.injEq, Option.some.injEq] at h
        obtain ⟨destination, -, headers, -, rfl⟩ := h
        rfl
      · simp at h

/-- A verdict on the bytes read so far is the verdict on all of them. -/
theorem PrefixParser.parse_append (hparser : PrefixParser httparse) (more : Bytes)
    (h : parseProxyRequest httparse b ≠ .ok none) :
    parseProxyRequest httparse (b ++ more) = parseProxyRequest httparse b :=
  parseProxyRequest_congr (hparser.append more fun hnone => h (parseProxyRequest_incomplete hnone))

end Parsing

/-! ### Heads read back -/

/-- A head as `strip_ingress_headers` writes it. -/
def headText (method path : Str) (version : ℕ) (headers : List (Str × Bytes)) : Bytes :=
  utf8 (method ++ ' ' :: path ++ " HTTP/1.".toList ++ Nat.toDigits 10 version ++ "\r\n".toList) ++
    headers.flatMap (fun header => utf8 (header.1 ++ ": ".toList) ++ header.2 ++ utf8 "\r\n".toList) ++
    utf8 "\r\n".toList

/-- A parser that reads back what it has read: the method, target and version of a head with a line for each of some of
its headers. -/
structure ReadsBack (httparse : Httparse) : Prop extends PrefixParser httparse where
  fields {b : Bytes} {head : HttpHead} : httparse b = .ok (some head) →
    ∃ method path version, head.method = some method ∧ head.path = some path ∧ head.version = some version
  lines {b : Bytes} {head : HttpHead} {method path : Str} {version : ℕ} {headers : List (Str × Bytes)} :
    httparse b = .ok (some head) → head.method = some method → head.path = some path → head.version = some version →
    headers.Sublist head.headers → httparse (headText method path version headers) =
      .ok (some ⟨(headText method path version headers).length, method, path, version, headers⟩)

/-- The heads with some of the given headers, and their texts. -/
def headTable (method path : Str) (version : ℕ) (headers : List (Str × Bytes)) : List (Bytes × HttpHead) :=
  headers.sublists.map fun kept => (headText method path version kept,
    ⟨(headText method path version kept).length, method, path, version, kept⟩)

/-- A parser that knows the heads in a table: a text that none of them begins with is no head. -/
def tableParser (table : List (Bytes × HttpHead)) : Httparse := fun b =>
  match table.find? (fun entry => entry.1.isPrefixOf b) with
  | some entry => .ok (some entry.2)
  | none => if table.any (fun entry => b.isPrefixOf entry.1) then .ok none else .error "invalid token"

section Table

variable {table : List (Bytes × HttpHead)} {b : Bytes} {head : HttpHead}

theorem prefix_of_find {entry : Bytes × HttpHead} (h : table.find? (fun entry => entry.1.isPrefixOf b) = some entry) :
    entry ∈ table ∧ entry.1 <+: b := by
  have hle := List.find?_some h
  exact ⟨List.mem_of_find?_eq_some h, List.isPrefixOf_iff_prefix.1 hle⟩

theorem tableParser_eq_some (h : tableParser table b = .ok (some head)) :
    ∃ entry ∈ table, entry.1 <+: b ∧ entry.2 = head := by
  rw [tableParser] at h
  split at h
  · rename_i entry hfind
    cases h
    exact ⟨entry, (prefix_of_find hfind).1, (prefix_of_find hfind).2, rfl⟩
  · split_ifs at h
    cases h

/-- No head is the beginning of another, so the first one that fits is the only one. -/
theorem tableParser_of_start
    (hfree : ∀ entry ∈ table, ∀ other ∈ table, entry.1 <+: other.1 → entry = other) {entry : Bytes × HttpHead}
    (hentry : entry ∈ table) (hle : entry.1 <+: b) : tableParser table b = .ok (some entry.2) := by
  rw [tableParser]
  split
  · rename_i found hfind
    obtain ⟨hmem, hfound⟩ := prefix_of_find hfind
    rcases List.prefix_or_prefix_of_prefix hfound hle with h | h
    · rw [hfree found hmem entry hentry h]
    · rw [hfree entry hentry found hmem h]
  · rename_i hfind
    have := List.find?_eq_none.1 hfind entry hentry
    rw [List.isPrefixOf_iff_prefix] at this
    exact absurd hle this

theorem tableParser_prefixParser
    (hfree : ∀ entry ∈ table, ∀ other ∈ table, entry.1 <+: other.1 → entry = other)
    (hlen : ∀ entry ∈ table, entry.2.headerLen = entry.1.length) : PrefixParser (tableParser table) where
  append {b} more h := by
    by_cases hfound : ∃ entry ∈ table, entry.1 <+: b
    · obtain ⟨entry, hentry, hle⟩ := hfound
      rw [tableParser_of_start hfree hentry hle,
        tableParser_of_start hfree hentry (hle.trans (List.prefix_append b more))]
    · have hnone : ∀ text, (∀ entry ∈ table, ¬ entry.1 <+: text) → (∀ entry ∈ table, ¬ text <+: entry.1) →
          tableParser table text = .error "invalid token" := by
        intro text hshort hlong
        rw [tableParser, List.find?_eq_none.2 (by simpa [List.isPrefixOf_iff_prefix] using hshort)]
        simpa [List.isPrefixOf_iff_prefix] using hlong
      have hb : ∀ entry ∈ table, ¬ b <+: entry.1 := by
        intro entry hentry hle
        refine h ?_
        rw [tableParser, List.find?_eq_none.2 (by simpa [List.isPrefixOf_iff_prefix] using hfound)]
        simp only [List.any_eq_true, ite_eq_left_iff]
        exact fun hno => absurd ⟨entry, hentry, List.isPrefixOf_iff_prefix.2 hle⟩ hno
      rw [hnone b (by simpa using hfound) hb]
      refine hnone _ (fun entry hentry hle => ?_) fun entry hentry hle => ?_
      · rcases List.prefix_or_prefix_of_prefix hle (List.prefix_append b more) with hshort | hlong
        · exact hfound ⟨entry, hentry, hshort⟩
        · exact hb entry hentry hlong
      · exact hb entry hentry ((List.prefix_append b more).trans hle)
  headerLen_le h := by
    obtain ⟨entry, hentry, hle, rfl⟩ := tableParser_eq_some h
    rw [hlen entry hentry]
    exact hle.length_le
  block h := by
    obtain ⟨entry, hentry, hle, rfl⟩ := tableParser_eq_some h
    rw [hlen entry hentry, ← List.prefix_iff_eq_take.1 hle]
    exact tableParser_of_start hfree hentry (List.prefix_refl _)

theorem headTable_readsBack {method path : Str} {version : ℕ} {headers : List (Str × Bytes)}
    (hfree : ∀ kept ∈ headers.sublists, ∀ other ∈ headers.sublists,
      headText method path version kept <+: headText method path version other → kept = other) :
    ReadsBack (tableParser (headTable method path version headers)) := by
  have hentries : ∀ entry ∈ headTable method path version headers,
      ∀ other ∈ headTable method path version headers, entry.1 <+: other.1 → entry = other := by
    intro entry hentry other hother hle
    obtain ⟨kept, hkept, rfl⟩ := List.mem_map.1 hentry
    obtain ⟨kept', hkept', rfl⟩ := List.mem_map.1 hother
    rw [hfree kept hkept kept' hkept' hle]
  refine { tableParser_prefixParser hentries fun entry hentry => ?_ with
    fields := fun h => ?_, lines := fun h hmethod hpath hversion hsublist => ?_ }
  · obtain ⟨kept, -, rfl⟩ := List.mem_map.1 hentry
    rfl
  · obtain ⟨entry, hentry, -, rfl⟩ := tableParser_eq_some h
    obtain ⟨kept, -, rfl⟩ := List.mem_map.1 hentry
    exact ⟨_, _, _, rfl, rfl, rfl⟩
  · obtain ⟨entry, hentry, -, rfl⟩ := tableParser_eq_some h
    obtain ⟨kept, hkept, rfl⟩ := List.mem_map.1 hentry
    cases hmethod
    cases hpath
    cases hversion
    have hmem := List.mem_sublists.2 (hsublist.trans (List.mem_sublists.1 hkept))
    exact tableParser_of_start hentries (List.mem_map.2 ⟨_, hmem, rfl⟩) (List.prefix_refl _)

end Table

/-- A GET with credentials. -/
def credentialHeaders : List (Str × Bytes) :=
  [("Host".toList, utf8 "a.test".toList), ("proxy-authorization".toList, utf8 "Basic YTpi".toList)]

def credentialParser : Httparse := tableParser (headTable "GET".toList "/".toList 1 credentialHeaders)

theorem credentialParser_readsBack : ReadsBack credentialParser := headTable_readsBack (by decide +kernel)

def credentialBuffer : Bytes := headText "GET".toList "/".toList 1 credentialHeaders ++ utf8 "body".toList

def credentialRequest : ParsedProxyRequest where
  method := "GET".toList
  destination := none
  headerLen := (headText "GET".toList "/".toList 1 credentialHeaders).length
  isolation := ⟨none, false⟩
  proxyAuthorization := some "Basic YTpi".toList
  internalIdentity := none

theorem parse_credentialBuffer : parseProxyRequest credentialParser credentialBuffer = .ok (some credentialRequest) :=
  Fallible.toOption_eq_some.1 (by decide +kernel)

/-! ### Pieces -/

namespace ByteStream

variable {stream : ByteStream} {capacity : ℕ}

/-- A read takes its bytes off the front of the stream, and the error at the end stays where it is. -/
theorem read_spec (hflow : stream.Flowing) (hcapacity : 0 < capacity) :
    (stream.bytes = [] ∧ stream.read capacity = (stream.failure.elim (.ok ⟨[], Nat.zero_le _⟩) .error, stream)) ∨
    ∃ chunk rest, stream.read capacity = (.ok chunk, rest) ∧ chunk.1 ≠ [] ∧ rest.Flowing ∧
      chunk.1 ++ rest.bytes = stream.bytes := by
  obtain ⟨pieces, failure⟩ := stream
  cases pieces with
  | nil => exact .inl ⟨rfl, rfl⟩
  | cons piece pieces =>
    have hpiece : piece ≠ [] := hflow piece (List.mem_cons_self ..)
    have hpieces : ∀ other ∈ pieces, other ≠ [] := fun other hother => hflow other (List.mem_cons_of_mem _ hother)
    refine .inr ⟨_, _, rfl, ?_, ?_, ?_⟩
    · cases piece with
      | nil => exact absurd rfl hpiece
      | cons byte piece =>
        obtain ⟨n, rfl⟩ : ∃ n, capacity = n + 1 := ⟨capacity - 1, by omega⟩
        simp
    · intro other hother
      simp only at hother
      split_ifs at hother with hfits
      · exact hpieces other hother
      · rcases List.mem_cons.1 hother with rfl | hother
        · rw [Ne, List.drop_eq_nil_iff]
          exact hfits
        · exact hpieces other hother
    · simp only [bytes]
      split_ifs with hfits
      · rw [List.take_of_length_le hfits, List.flatten_cons]
      · rw [List.flatten_cons, List.flatten_cons, ← List.append_assoc, List.take_append_drop]

end ByteStream

/-! ### The reading loop -/

/-- The request at the front of some bytes, if their first `MAX_CONNECT_HEADER_BYTES` hold an acceptable one. -/
def firstRequest (httparse : Httparse) (bytes : Bytes) : Option ParsedProxyRequest :=
  (parseProxyRequest httparse (bytes.take MAX_CONNECT_HEADER_BYTES)).toOption.join

/-- What reading on from `buffer` does to a stream: the bytes are kept, the reads are few, and the request is the one
at the front of the whole. -/
structure Reads (httparse : Httparse) (buffer : Bytes) (stream : ByteStream)
    (result : Except HandlerError (ParsedProxyRequest × Bytes)) (reads : ℕ) (rest : ByteStream) : Prop where
  conserved : ∃ taken, taken ++ rest.bytes = stream.bytes ∧ (buffer ++ taken).length ≤ MAX_CONNECT_HEADER_BYTES ∧
    ∀ request buffered, result = .ok (request, buffered) → buffered = buffer ++ taken
  reads_le : reads + buffer.length ≤ MAX_CONNECT_HEADER_BYTES
  outcome : result.toOption.map Prod.fst = firstRequest httparse (buffer ++ stream.bytes)

section Loop

variable {lib : Libraries} {buffer : Bytes} {stream rest : ByteStream}

/-- The loop ends where it stands with what the bytes so far decide. -/
theorem Reads.now {result : Except HandlerError (ParsedProxyRequest × Bytes)}
    (hbuffer : buffer.length ≤ MAX_CONNECT_HEADER_BYTES)
    (hresult : ∀ request buffered, result = .ok (request, buffered) → buffered = buffer)
    (houtcome : result.toOption.map Prod.fst = firstRequest lib.httparse (buffer ++ stream.bytes)) :
    Reads lib.httparse buffer stream result 0 stream where
  conserved := ⟨[], rfl, by simpa using hbuffer, by simpa using hresult⟩
  reads_le := by omega
  outcome := houtcome

theorem firstRequest_of_decided (hparser : PrefixParser lib.httparse) (hbuffer : buffer.length ≤ MAX_CONNECT_HEADER_BYTES)
    (h : parseProxyRequest lib.httparse buffer ≠ .ok none) (more : Bytes) :
    firstRequest lib.httparse (buffer ++ more) = (parseProxyRequest lib.httparse buffer).toOption.join := by
  rw [firstRequest, List.take_append, List.take_of_length_le hbuffer, hparser.parse_append _ h]

/-- Nothing more to come or no room for it: an undecided buffer holds no request. -/
theorem firstRequest_of_incomplete (h : parseProxyRequest lib.httparse buffer = .ok none) {more : Bytes}
    (hend : more = [] ∧ buffer.length ≤ MAX_CONNECT_HEADER_BYTES ∨ buffer.length = MAX_CONNECT_HEADER_BYTES) :
    firstRequest lib.httparse (buffer ++ more) = none := by
  have htake : (buffer ++ more).take MAX_CONNECT_HEADER_BYTES = buffer := by
    rcases hend with ⟨rfl, hle⟩ | heq
    · rw [List.append_nil, List.take_of_length_le hle]
    · rw [← heq, List.take_left]
  rw [firstRequest, htake, h]
  rfl

/-- A read that finds the stream at its end gives the request up, whether it is closed or broken. -/
theorem Reads.atEnd (hbuffer : buffer.length < MAX_CONNECT_HEADER_BYTES)
    (hparse : parseProxyRequest lib.httparse buffer = .ok none) (hend : stream.bytes = []) (e : HandlerError) :
    Reads lib.httparse buffer stream (.error e) 1 stream where
  conserved := ⟨[], rfl, by simpa using hbuffer.le, fun _ _ h => by cases h⟩
  reads_le := by omega
  outcome := by
    rw [hend, firstRequest_of_incomplete hparse (.inl ⟨rfl, hbuffer.le⟩)]
    rfl

/-- A read that brings something only moves bytes from the stream to the buffer. -/
theorem Reads.after {chunk : Bytes} {next left : ByteStream} {reads : ℕ}
    {result : Except HandlerError (ParsedProxyRequest × Bytes)}
    (h : Reads lib.httparse (buffer ++ chunk) next result reads left) (hchunk : 0 < chunk.length)
    (hbytes : chunk ++ next.bytes = stream.bytes) : Reads lib.httparse buffer stream result (reads + 1) left where
  conserved := by
    obtain ⟨taken, htaken, hlength, hresult⟩ := h.conserved
    refine ⟨chunk ++ taken, ?_, ?_, ?_⟩
    · rw [List.append_assoc, htaken, hbytes]
    · rwa [← List.append_assoc]
    · rwa [← List.append_assoc]
  reads_le := by
    have := h.reads_le
    rw [List.length_append] at this
    omega
  outcome := by rw [h.outcome, List.append_assoc, hbytes]

/-- The induction is on the rounds that are left; every read that goes on adds a byte at least, so they suffice. -/
theorem run_readProxyRequestLoop (hparser : PrefixParser lib.httparse) (timeout : Bool) {rounds : ℕ}
    (hrounds : MAX_CONNECT_HEADER_BYTES < rounds + buffer.length)
    (hbuffer : buffer.length ≤ MAX_CONNECT_HEADER_BYTES) (hflow : stream.Flowing) :
    ∃ result reads rest, (readProxyRequestLoop lib timeout rounds buffer).run ByteStream.answer stream =
      some (result, reads, rest) ∧ Reads lib.httparse buffer stream result reads rest := by
  induction rounds generalizing buffer stream with
  | zero => omega
  | succ rounds ih =>
    rw [readProxyRequestLoop]
    cases hparse : parseProxyRequest lib.httparse buffer with
    | error message =>
      refine ⟨_, _, _, rfl, Reads.now hbuffer (fun _ _ h => by cases h) ?_⟩
      rw [firstRequest_of_decided hparser hbuffer (by simp [hparse]), hparse]
      rfl
    | ok decided =>
      cases decided with
      | some request =>
        refine ⟨_, _, _, rfl, Reads.now hbuffer (fun _ _ h => by cases h; rfl) ?_⟩
        rw [firstRequest_of_decided hparser hbuffer (by simp [hparse]), hparse]
        rfl
      | none =>
        show ∃ result reads rest, Prog.run ByteStream.answer
          (if buffer.length = MAX_CONNECT_HEADER_BYTES then _ else perform (Call.read _ timeout) >>= _) stream = _ ∧ _
        split_ifs with hfull
        · refine ⟨_, _, _, rfl, Reads.now hbuffer (fun _ _ h => by cases h) ?_⟩
          rw [firstRequest_of_incomplete hparse (.inr hfull)]
          rfl
        · have hroom : 0 < min (MAX_CONNECT_HEADER_BYTES - buffer.length) 1024 := by omega
          rcases ByteStream.read_spec hflow hroom
            with ⟨hend, hread⟩ | ⟨chunk, rest, hread, hchunk, hrest, hbytes⟩
          · rw [run_perform (congrArg some hread)]
            have hgiveUp := Reads.atEnd (by omega) hparse hend
            rcases stream.failure with _ | _ | message <;> exact ⟨_, _, _, rfl, hgiveUp _⟩
          · have hlength : (buffer ++ chunk.1).length ≤ MAX_CONNECT_HEADER_BYTES := by
              rw [List.length_append]
              have := chunk.2
              omega
            have hgrown : 0 < chunk.1.length := List.length_pos_iff.2 hchunk
            obtain ⟨result, reads, left, hrun, hreads⟩ :=
              ih (by rw [List.length_append]; omega) hlength hrest
            rw [run_perform (congrArg some hread)]
            refine ⟨result, reads + 1, left, ?_, ?_⟩
            · dsimp only
              rw [if_neg (by simpa using hchunk), hrun]
              rfl
            · exact hreads.after hgrown hbytes

/-- The request is read off the stream, in whatever pieces it arrives. -/
def Accepts (lib : Libraries) (timeout : Bool) (stream : ByteStream) (request : ParsedProxyRequest) : Prop :=
  ∃ buffer reads rest, (readProxyRequest lib timeout).run ByteStream.answer stream = some (.ok (request, buffer), reads, rest)

theorem run_readProxyRequest (hparser : PrefixParser lib.httparse) (timeout : Bool) (hflow : stream.Flowing) :
    ∃ result reads rest, (readProxyRequest lib timeout).run ByteStream.answer stream = some (result, reads, rest) ∧
      Reads lib.httparse [] stream result reads rest :=
  run_readProxyRequestLoop hparser timeout (by simp) (Nat.zero_le _) hflow

theorem accepts_iff (hparser : PrefixParser lib.httparse) (timeout : Bool) (hflow : stream.Flowing)
    {request : ParsedProxyRequest} :
    Accepts lib timeout stream request ↔ firstRequest lib.httparse stream.bytes = some request := by
  obtain ⟨result, reads, rest, hrun, hreads⟩ := run_readProxyRequest hparser timeout hflow
  have houtcome := hreads.outcome
  rw [List.nil_append] at houtcome
  rw [← houtcome, Accepts, hrun]
  cases result with
  | error e => simp [Except.toOption]
  | ok accepted =>
    obtain ⟨accepted, buffer⟩ := accepted
    simp [Except.toOption]

/-- A head that is complete within the limit is read the same from the whole as from what the buffer has room for. -/
theorem firstRequest_of_complete (hparser : PrefixParser lib.httparse) {bytes : Bytes} {head : HttpHead}
    (hhead : lib.httparse bytes = .ok (some head)) (hlen : head.headerLen ≤ MAX_CONNECT_HEADER_BYTES) :
    firstRequest lib.httparse bytes = (parseProxyRequest lib.httparse bytes).toOption.join := by
  have hblock := hparser.block hhead
  have hfirst : lib.httparse (bytes.take MAX_CONNECT_HEADER_BYTES) = lib.httparse bytes := by
    obtain ⟨more, hmore⟩ : bytes.take head.headerLen <+: bytes.take MAX_CONNECT_HEADER_BYTES :=
      List.take_prefix_take_left hlen
    rw [hhead, ← hmore, hparser.append _ (by simp [hblock]), hblock]
  rw [firstRequest, parseProxyRequest_congr hfirst]

/-- Reading a request from a stream: it ends after at most as many reads as the buffer has bytes, keeps every byte, and
accepts what it would accept in one piece. Bytes past the limit and the way the stream ends play no part in it. -/
theorem reading_ignores_chunks (hparser : PrefixParser lib.httparse) (timeout : Bool) (hflow : stream.Flowing) :
    (∃ result reads rest, (readProxyRequest lib timeout).run ByteStream.answer stream = some (result, reads, rest) ∧
      reads ≤ MAX_CONNECT_HEADER_BYTES ∧
      ∃ taken, taken ++ rest.bytes = stream.bytes ∧ taken.length ≤ MAX_CONNECT_HEADER_BYTES ∧
        ∀ request buffer, result = .ok (request, buffer) → buffer = taken) ∧
    (∀ other : ByteStream, other.Flowing →
      other.bytes.take MAX_CONNECT_HEADER_BYTES = stream.bytes.take MAX_CONNECT_HEADER_BYTES →
      ∀ request, Accepts lib timeout other request ↔ Accepts lib timeout stream request) ∧
    ∀ head, lib.httparse stream.bytes = .ok (some head) → head.headerLen ≤ MAX_CONNECT_HEADER_BYTES →
      ∀ request, Accepts lib timeout stream request ↔
        parseProxyRequest lib.httparse stream.bytes = .ok (some request) := by
  refine ⟨?_, ?_, ?_⟩
  · obtain ⟨result, reads, rest, hrun, hreads⟩ := run_readProxyRequest hparser timeout hflow
    obtain ⟨taken, htaken, hlength, hresult⟩ := hreads.conserved
    exact ⟨result, reads, rest, hrun, hreads.reads_le, taken, htaken, hlength, hresult⟩
  · intro other hother hbytes request
    rw [accepts_iff hparser timeout hflow, accepts_iff hparser timeout hother, firstRequest, firstRequest, hbytes]
  · intro head hhead hlen request
    rw [accepts_iff hparser timeout hflow, firstRequest_of_complete hparser hhead hlen]
    cases parseProxyRequest lib.httparse stream.bytes <;> simp [Except.toOption, Option.join]

end Loop

def credentialLibraries : Libraries where
  httparse := credentialParser
  parseAuthority := fun _ => .error "invalid authority"
  torAddr := fun _ => .error "invalid address"
  hash := fun _ => ByteVec.replicate 32 0

theorem reading_ignores_chunks_credentials :
    Accepts credentialLibraries false ⟨[credentialBuffer.take 7, credentialBuffer.drop 7], none⟩ credentialRequest := by
  obtain ⟨head, hhead, hlen⟩ := parseProxyRequest_eq_some parse_credentialBuffer
  have hbytes : ByteStream.bytes ⟨[credentialBuffer.take 7, credentialBuffer.drop 7], none⟩ = credentialBuffer := by
    decide +kernel
  have hflow : ByteStream.Flowing ⟨[credentialBuffer.take 7, credentialBuffer.drop 7], none⟩ := by
    unfold ByteStream.Flowing
    decide +kernel
  have hparser : PrefixParser credentialLibraries.httparse := credentialParser_readsBack.toPrefixParser
  refine ((reading_ignores_chunks hparser false hflow).2.2 head ?_ ?_ credentialRequest).2 ?_
  · rw [hbytes]
    exact hhead
  · rw [← hlen]
    decide +kernel
  · rw [hbytes]
    exact parse_credentialBuffer

/-! ### Stripping -/

section Stripping

variable {httparse : Httparse} {buffer : Bytes} {head : HttpHead} {method path : Str} {version : ℕ}

/-- What is written for a parsed head, with what follows the head in the buffer. -/
theorem stripIngressHeaders_eq (hparser : PrefixParser httparse) (hhead : httparse buffer = .ok (some head))
    (hmethod : head.method = some method) (hpath : head.path = some path) (hversion : head.version = some version) :
    stripIngressHeaders httparse buffer head.headerLen =
      .ok (headText method path version (head.headers.filter fun header => !isIngressHeader header.1) ++
        buffer.drop head.headerLen) := by
  rw [stripIngressHeaders, if_neg (Nat.not_lt.2 (hparser.headerLen_le hhead)), hparser.block hhead]
  simp only [Except.mapError, ok_bind, hmethod, hpath, hversion]
  rfl

/-- Taking the ingress headers out of a request that was read: nothing else of the head and nothing after it changes,
and doing it again changes nothing. -/
theorem stripping_is_exact (hback : ReadsBack httparse) {request : ParsedProxyRequest}
    (hrequest : parseProxyRequest httparse buffer = .ok (some request)) :
    ∃ head out stripped, httparse buffer = .ok (some head) ∧ head.headerLen = request.headerLen ∧
      stripIngressHeaders httparse buffer request.headerLen = .ok out ∧ httparse out = .ok (some stripped) ∧
      stripped.method = head.method ∧ stripped.path = head.path ∧ stripped.version = head.version ∧
      stripped.headers = (head.headers.filter fun header => !isIngressHeader header.1) ∧
      out.drop stripped.headerLen = buffer.drop request.headerLen ∧
      stripIngressHeaders httparse out stripped.headerLen = .ok out := by
  obtain ⟨head, hhead, hlen⟩ := parseProxyRequest_eq_some hrequest
  obtain ⟨method, path, version, hmethod, hpath, hversion⟩ := hback.fields hhead
  let kept := head.headers.filter fun header => !isIngressHeader header.1
  let block := headText method path version kept
  let stripped : HttpHead := ⟨block.length, method, path, version, kept⟩
  have hblock : httparse block = .ok (some stripped) :=
    hback.lines hhead hmethod hpath hversion List.filter_sublist
  have hout : httparse (block ++ buffer.drop head.headerLen) = .ok (some stripped) := by
    rw [hback.append _ (by simp [hblock]), hblock]
  refine ⟨head, block ++ buffer.drop head.headerLen, stripped, hhead, hlen.symm, ?_, hout, hmethod.symm, hpath.symm,
    hversion.symm, rfl, ?_, ?_⟩
  · rw [hlen]
    exact stripIngressHeaders_eq hback.toPrefixParser hhead hmethod hpath hversion
  · rw [hlen]
    exact List.drop_left
  · rw [stripIngressHeaders_eq hback.toPrefixParser hout rfl rfl rfl]
    have hkept : kept.filter (fun header => !isIngressHeader header.1) = kept := by
      rw [List.filter_filter]
      simp [kept]
    show Except.ok (headText method path version (kept.filter _) ++ List.drop block.length _) = _
    rw [hkept, List.drop_left]

end Stripping

theorem stripping_is_exact_credentials : ∃ out stripped,
    stripIngressHeaders credentialParser credentialBuffer credentialRequest.headerLen = .ok out ∧
      credentialParser out = .ok (some stripped) ∧ stripIngressHeaders credentialParser out stripped.headerLen = .ok out := by
  obtain ⟨-, out, stripped, -, -, hout, hstripped, -, -, -, -, -, hagain⟩ :=
    stripping_is_exact credentialParser_readsBack parse_credentialBuffer
  exact ⟨out, stripped, hout, hstripped, hagain⟩

end Cobra
