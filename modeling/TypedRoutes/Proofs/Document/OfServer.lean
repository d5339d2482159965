import TypedRoutes.CommandLine.Run
import TypedRoutes.Proofs.Document.Source
import TypedRoutes.Proofs.Document.Store
import TypedRoutes.Proofs.Json.Nesting

/-!
# Documents of servers

Where the base and the endpoint of a contract make a URL, a server is asked once, whatever it
answers, and nothing is lost of what it says: the document is there exactly if the answer tells of
no failure and holds a JSON object that can be read, and every reported error names the URL, with
the status if that is the failure (`Document.ofServer_reads_or_reports`). What is not reported is
listed by `Reply.Escapes`. A body that is nested too deep is on the list, so not every failure is
reported (`Document.ofServer_escapes_nestedBody`). Where the two make no URL, nothing is asked.

`sync` works with the same requests and the same document (`CommandLine.Draft.requests_sync`).
-/

set_option autoImplicit false

namespace TypedRoutes

/-! ## Addresses -/

/-- Where there are a base and an endpoint, the address is the one resolved against the other. -/
theorem Request.address_of_some (base endpoint : String) :
    address (some base) (some endpoint) = (Url.resolve base endpoint).map some := by
  rw [address, Option.getD_some]
  split
  · next hbase =>
    subst hbase
    rfl
  · rfl

/-- A contract at an address that resolves is asked for by one request to that address. -/
theorem Request.forContract_of_resolve {base endpoint url : String}
    (h : Url.resolve base endpoint = .ok url) (timeout : Option Seconds) (retries : Int) :
    forContract (some base) (some endpoint) timeout retries =
      .ok ⟨some url, timeout, .upTo retries⟩ := by
  rw [forContract, address_of_some, h]
  rfl

/-! ## Replies -/

/-- The status of a reply that tells of a failure. -/
def Reply.failureStatus? : Reply → Option Int
  | .failed _ => none
  | .broken _ => none
  | .answered status _ _ => if isFailure status then some status else none

/-- The failures are the statuses from 400 to 599. -/
theorem Reply.isFailure_iff {status : Int} :
    isFailure status = true ↔ 400 ≤ status ∧ status < 600 := by
  simp [isFailure]

/-- Only an answer has a status, and it counts only if it is one of a failure. -/
theorem Reply.failureStatus?_eq_some_iff {reply : Reply} {status : Int} :
    reply.failureStatus? = some status ↔
      (400 ≤ status ∧ status < 600) ∧ ∃ reason body, reply = .answered status reason body := by
  cases reply with
  | failed report => simp [failureStatus?]
  | broken report => simp [failureStatus?]
  | answered code reason body =>
    rw [failureStatus?, ← isFailure_iff, Option.ite_none_right_eq_some]
    constructor
    · rintro ⟨hfailure, hcode⟩
      obtain rfl := Option.some.inj hcode
      exact ⟨hfailure, reason, body, rfl⟩
    · rintro ⟨hfailure, _, _, hreply⟩
      cases hreply
      exact ⟨hfailure, rfl⟩

/-- What ends the fetching of a reply without being an error of the contract: the request breaks
off, or the answer tells of no failure and its body has more arrays and objects in one another than
can be read, or half of a pair. -/
inductive Reply.Escapes (limits : Limits) : Reply → Halt → Prop
  | request (report : String) : Escapes limits (.broken report) (.request report)
  | nesting {status : Int} {body : String} {opened : Json.Enclosure} (reason : Option String) :
      ¬ (400 ≤ status ∧ status < 600) →
        Json.parseWithin limits.json body = .error (.nesting opened) →
          limits.json < body.toList.countP Json.Reader.isOpening →
            Escapes limits (.answered status reason body) (.nesting opened)
  | unpaired {status : Int} {body : String} {half : Nat} {digits : List Char}
      (reason : Option String) :
      ¬ (400 ≤ status ∧ status < 600) →
        Json.parseWithin limits.json body = .error (.unpaired half) →
          '\\' :: 'u' :: digits <:+: body.toList → Text.hexNumber? digits = some half →
            Json.Reader.isHalf half = true →
              Escapes limits (.answered status reason body) (.unpaired half)

section

variable {limits : Limits} {url : String} {reply : Reply} {halt : Halt}

/-- What escapes is no error of the contract. -/
theorem Reply.Escapes.ne_reported (h : reply.Escapes limits halt) (error : ContractError) :
    halt ≠ .reported error := by
  cases h <;> exact nofun

/-- A reply that escapes gives no document but ends the fetching as it is. -/
theorem Reply.document_of_escapes (h : reply.Escapes limits halt) :
    reply.document limits url = .error halt := by
  cases h with
  | request report => rfl
  | nesting reason hstatus hparse _ =>
    rw [document, if_neg (mt isFailure_iff.1 hstatus), hparse]
    rfl
  | unpaired reason hstatus hparse _ _ _ =>
    rw [document, if_neg (mt isFailure_iff.1 hstatus), hparse]
    rfl

/-- A body that is not read is reported without a status, unless the reading breaks off. -/
theorem Reply.unread_reports_or_escapes {status : Int} {body : String} {error : Json.ParseError}
    (reason : Option String) (hstatus : ¬ (400 ≤ status ∧ status < 600))
    (h : Json.parseWithin limits.json body = .error error) :
    (∃ detail, unread url error = .reported (.fetch detail url none)) ∨
      Escapes limits (.answered status reason body) (unread url error) := by
  cases error with
  | malformed fault place => exact .inl ⟨_, rfl⟩
  | digits limit => exact .inl ⟨_, rfl⟩
  | nesting opened =>
    obtain ⟨limit, hlimit, hcount⟩ := Json.lt_openings_of_parse h
    obtain rfl := Option.some.inj hlimit
    exact .inr (.nesting reason hstatus h hcount)
  | unpaired half =>
    obtain ⟨hhalf, digits, hescape, hnumber⟩ := Json.exists_escape_of_parse h
    exact .inr (.unpaired reason hstatus h hescape hnumber hhalf)

/-- A reply that holds no document is reported with the URL, and with the status if that is the
failure, unless the fetching breaks off. -/
theorem Reply.document_reports_or_escapes (h : reply.document limits url = .error halt) :
    (∃ detail, halt = .reported (.fetch detail url reply.failureStatus?)) ∨
      reply.Escapes limits halt := by
  -- A reply is looked at in this order: whether there is one, its status, then its body.
  cases reply with
  | failed report =>
    obtain rfl := Except.error.inj h
    exact .inl ⟨report, rfl⟩
  | broken report =>
    obtain rfl := Except.error.inj h
    exact .inr (.request report)
  | answered status reason body =>
    simp only [document, failureStatus?] at h ⊢
    split at h
    · next hfailure =>
      obtain rfl := Except.error.inj h
      exact .inl ⟨reasonText reason, by rw [if_pos hfailure]; rfl⟩
    · next hfine =>
      rw [if_neg hfine]
      split at h
      · next herror =>
        obtain rfl := Except.error.inj h
        exact unread_reports_or_escapes reason (mt isFailure_iff.2 hfine) herror
      · cases h
      · obtain rfl := Except.error.inj h
        exact .inl ⟨_, rfl⟩

/-- A reply holds a document if it is an answer that tells of no failure and holds a JSON object. -/
theorem Reply.document_eq_ok_iff_answered {doc : Document} :
    reply.document limits url = .ok doc ↔
      ∃ status reason body, reply = .answered status reason body ∧
        ¬ (400 ≤ status ∧ status < 600) ∧ doc.IsReadFrom limits body := by
  cases reply with
  | failed report => simp [document]
  | broken report => simp [document]
  | answered status reason body =>
    by_cases hfailure : isFailure status = true
    · have hrange := isFailure_iff.1 hfailure
      simp [document, hfailure, hrange]
    · have hrange := mt isFailure_iff.2 hfailure
      rw [document_eq_ok_iff (Bool.eq_false_of_not_eq_true hfailure)]
      constructor
      · intro hread
        exact ⟨status, reason, body, rfl, hrange, hread⟩
      · rintro ⟨_, _, _, hreply, -, hread⟩
        cases hreply
        exact hread

end

/-! ## Documents -/

namespace Document

/-- A well-formed JSON value that is stored as a document unfolds to itself. -/
theorem tree_ofJson {j : Json} (h : j.WellFormed) : (ofJson j).tree = j.toDatum := by
  have hempty : Stored #[] := by simp [Stored]
  exact unfold_of_stands (stored_store j h hempty).2.2 (Nat.le_refl _)

theorem run_ofExcept {ε α σ : Type} (x : Except ε α) (s : σ) :
    (ofExcept x : ExceptT ε (StateM σ) α).run.run s = (x, s) := by
  cases x <;> rfl

section Runs

variable {base endpoint : Option String} {timeout : Option Seconds} {retries : Int}

/-- A request that can be made is made once, and its reply decides. -/
theorem run_ofServer {request : Request}
    (h : Request.forContract base endpoint timeout retries = .ok request) (limits : Limits)
    (server : Server) (made : List Request) :
    (ofServer limits server base endpoint timeout retries).run.run made =
      ((server request).document limits (request.url.getD ""), made ++ [request]) := by
  unfold ofServer
  rw [h]
  exact run_ofExcept _ (made ++ [request])

/-- Without a URL nothing is asked. -/
theorem run_ofServer_of_fault {fault : Url.Fault}
    (h : Request.forContract base endpoint timeout retries = .error fault) (limits : Limits)
    (server : Server) (made : List Request) :
    (ofServer limits server base endpoint timeout retries).run.run made =
      (.error (.url fault), made) := by
  unfold ofServer
  rw [h]
  rfl

end Runs

/-- Where a base and an endpoint make a URL, exactly one request is made, to that URL. Its result is
a document exactly if the answer has no status from 400 to 599 and its body is a JSON object, and
then the document is this object. An error that is reported is one of a fetch from that URL, with
the status of the answer if it is one from 400 to 599, and without any if it is not. Nothing else
comes of the request, except for what `Reply.Escapes` lists. -/
theorem ofServer_reads_or_reports {base endpoint url : String}
    (hurl : Url.resolve base endpoint = .ok url) (limits : Limits) (timeout : Option Seconds)
    (retries : Int) (server : Server) (made : List Request) :
    let request : Request := ⟨some url, timeout, .upTo retries⟩
    ∃ result, (ofServer limits server (some base) (some endpoint) timeout retries).run.run made =
        (result, made ++ [request]) ∧
      (∀ doc, result = .ok doc ↔
        ∃ status reason body, server request = .answered status reason body ∧
          ¬ (400 ≤ status ∧ status < 600) ∧
            ∃ members, Json.parseWithin limits.json body = .ok (.object members) ∧
              doc = .ofJson (.object members) ∧ doc.tree = .map (Json.toEntries members)) ∧
      (∀ error, result = .error (.reported error) →
        ∃ detail failure, error = .fetch detail url failure ∧ error.source = some url ∧
          ∀ status, failure = some status ↔ (400 ≤ status ∧ status < 600) ∧
            ∃ reason body, server request = .answered status reason body) ∧
      ∀ halt, (result = .error halt ∧ ∀ error, halt ≠ .reported error) ↔
        (server request).Escapes limits halt := by
  intro request
  have hrequest := Request.forContract_of_resolve hurl timeout retries
  refine ⟨_, run_ofServer hrequest limits server made, ?_, ?_, ?_⟩
  · intro doc
    rw [Reply.document_eq_ok_iff_answered]
    refine exists_congr fun status => exists_congr fun reason => exists_congr fun body =>
      and_congr_right fun _ => and_congr_right fun _ => ?_
    constructor
    · rintro ⟨members, hparse, rfl⟩
      have hwellFormed := Json.wellFormed_of_parse (Json.parse_of_parseWithin hparse)
      exact ⟨members, hparse, rfl, tree_ofJson hwellFormed⟩
    · rintro ⟨members, hparse, hdoc, -⟩
      exact ⟨members, hparse, hdoc⟩
  -- What is reported is no escape, and what escapes is not reported.
  · intro error herror
    rcases Reply.document_reports_or_escapes herror with ⟨detail, hdetail⟩ | hescapes
    · obtain rfl := Halt.reported.inj hdetail
      exact ⟨detail, _, rfl, rfl, fun status => Reply.failureStatus?_eq_some_iff⟩
    · exact absurd rfl (hescapes.ne_reported error)
  · intro halt
    constructor
    · rintro ⟨herror, hhalt⟩
      rcases Reply.document_reports_or_escapes herror with ⟨detail, hdetail⟩ | hescapes
      · exact absurd hdetail (hhalt _)
      · exact hescapes
    · intro hescapes
      exact ⟨Reply.document_of_escapes hescapes, hescapes.ne_reported⟩

/-- A server that answers every request with one status and one body. -/
def constantServer (status : Int) (body : String) : Server := fun _ =>
  .answered status (some "") body

/-- A body of opening brackets. -/
def nestedBody (depth : Nat) : String := String.ofList (List.replicate depth '[')

/-- As many opening brackets as go beyond the limit escape, whatever the server is asked for. -/
theorem escapes_nestedBody {depth : Nat} (h : Limits.usual.json < depth) (request : Request) :
    (constantServer 200 (nestedBody depth) request).Escapes .usual (.nesting .array) := by
  have hcount : Limits.usual.json < (nestedBody depth).toList.countP Json.Reader.isOpening := by
    rw [nestedBody, String.toList_ofList, List.countP_replicate]
    exact h
  exact .nesting _ (by decide) (Json.parseWithin_brackets h) hcount

/-- A missing contract is reported with its status though the body is an object, the same body with
a status beyond the failures is a document, and a body of brackets in brackets escapes. -/
theorem ofServer_reads_or_reports_constantServer :
    let ask (status : Int) (body : String) :=
      (ofServer .usual (constantServer status body) (some "http://localhost:3000/v1")
        (some "/__contract__") none (-1)).run.run []
    let request : Request :=
      ⟨some "http://localhost:3000/__contract__", none, .upTo (-1)⟩
    (∃ detail, ask 404 "\x7b\x7d" =
        (.error (.reported (.fetch detail "http://localhost:3000/__contract__" (some 404))),
          [request])) ∧
      (∃ doc, ask 600 "\x7b\x7d" = (.ok doc, [request]) ∧ doc.tree = .map []) ∧
        ask 200 (nestedBody 1000) = (.error (.nesting .array), [request]) := by
  intro ask request
  have hurl : Url.resolve "http://localhost:3000/v1" "/__contract__" =
      .ok "http://localhost:3000/__contract__" := by decide +kernel
  have hparse : Json.parseWithin (some 980) "\x7b\x7d" = .ok (.object []) := by rfl
  refine ⟨?_, ?_, ?_⟩
  · obtain ⟨result, hrun, hok, herror, hescapes⟩ :=
      ofServer_reads_or_reports hurl .usual none (-1) (constantServer 404 "\x7b\x7d") []
    cases result with
    | ok doc =>
      obtain ⟨status, reason, body, hanswer, hfine, -⟩ := (hok doc).1 rfl
      cases hanswer
      exact absurd ⟨by decide, by decide⟩ hfine
    | error halt =>
      by_cases hhalt : ∃ error, halt = .reported error
      · obtain ⟨error, rfl⟩ := hhalt
        obtain ⟨detail, failure, rfl, -, hfailure⟩ := herror error rfl
        have hstatus := (hfailure 404).2 ⟨by decide, _, _, rfl⟩
        exact ⟨detail, hstatus ▸ hrun⟩
      -- The body of a failure is not read, so it cannot escape.
      · have hescape := (hescapes halt).1 ⟨rfl, fun error h => hhalt ⟨error, h⟩⟩
        cases hescape with
        | nesting _ hfine _ _ => exact absurd ⟨by decide, by decide⟩ hfine
        | unpaired _ hfine _ _ _ _ => exact absurd ⟨by decide, by decide⟩ hfine
  · obtain ⟨result, hrun, hok, -⟩ :=
      ofServer_reads_or_reports hurl .usual none (-1) (constantServer 600 "\x7b\x7d") []
    have hread := (hok (ofJson (.object []))).2
      ⟨600, some "", _, rfl, by decide, [], hparse, rfl, by rfl⟩
    exact ⟨_, hread ▸ hrun, by rfl⟩
  · obtain ⟨result, hrun, -, -, hescapes⟩ :=
      ofServer_reads_or_reports hurl .usual none (-1) (constantServer 200 (nestedBody 1000)) []
    have hread := (hescapes (.nesting .array)).2 (escapes_nestedBody (by decide) _)
    exact hread.1 ▸ hrun

/-- A body that is nested too deep is not reported. -/
theorem ofServer_escapes_nestedBody :
    ¬ ∀ server : Server,
      let result := ((ofServer .usual server (some "http://localhost:3000")
        (some "/__contract__") (some .default) RetryPolicy.defaultLimit).run.run []).1
      (∃ doc, result = .ok doc) ∨ ∃ error, result = .error (.reported error) := by
  intro h
  have hurl : Url.resolve "http://localhost:3000" "/__contract__" =
      .ok "http://localhost:3000/__contract__" := by decide +kernel
  have hrequest := Request.forContract_of_resolve hurl (some .default) RetryPolicy.defaultLimit
  -- The status tells of no failure, so the body is read, and its brackets are too many.
  have hresult : ((ofServer .usual (constantServer 200 (nestedBody 20000))
      (some "http://localhost:3000") (some "/__contract__") (some .default)
        RetryPolicy.defaultLimit).run.run []).1 = .error (.nesting .array) := by
    rw [run_ofServer hrequest, Reply.document_of_escapes (escapes_nestedBody (by decide) _)]
  rcases h (constantServer 200 (nestedBody 20000)) with ⟨doc, hdoc⟩ | ⟨error, herror⟩
  · cases hresult.symm.trans hdoc
  · cases hresult.symm.trans herror

end Document

/-! ## Commands -/

namespace CommandLine.Draft

/-- A `sync` makes the requests that its document takes. -/
theorem requests_sync (limits : Limits) (options : SyncOptions) (server : Server) :
    (sync limits options server).requests =
      ((Document.ofServer limits server options.base options.endpoint
        (options.timeout.map Seconds.fraction) RetryPolicy.defaultLimit).run.run []).2 := by
  unfold sync
  split
  · next fault hfault => rw [Document.run_ofServer_of_fault hfault]
  · next request hrequest =>
    rw [Document.run_ofServer hrequest]
    dsimp only
    split
    · exact requests_ofHalt _ _ _ _
    · rfl

end CommandLine.Draft
end TypedRoutes
