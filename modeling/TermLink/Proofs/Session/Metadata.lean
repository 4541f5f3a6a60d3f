import TermLink.Edge.Pipe
import TermLink.Edge.Poll
import TermLink.Proofs.Gate.Client
import TermLink.Proofs.Header
import TermLink.Proofs.Text.Integer

/-!
# What an edge learns of a session

Whatever a gate can tell about a session in the fields of its dial, the edge learns: who the client
is, how large its terminal is and which repository it named. So it asks the host for the terminal
for which the gate asks.
-/

namespace TermLink

namespace Edge

variable {σ : Type} (ask : Exchange σ) (h : σ)

/-- Asking for a terminal is one request. -/
theorem requestTerminal_fst (m : Message) :
    (requestTerminal ask h m).1 = (ask (initRequest m) h).1 := by
  rw [requestTerminal]
  dsimp only
  split
  · rfl
  · split <;> rfl

/-- A session that polls begins with one request, for the terminal. -/
theorem Poll.start_fst (settings : Settings) (s : SessionInfo) :
    (Poll.start settings s ask h).1 = (ask (initRequest s.request) h).1 := by
  rw [← requestTerminal_fst, Poll.start]
  split
  all_goals
    next asked =>
    rw [asked]

end Edge

namespace SessionInfo

/-- The text of a number is not changed by trimming. -/
theorem content?_numberText (n : Int64) : Text.content? (numberText n) = some (numberText n) := by
  have dark : ∀ c ∈ (numberText n).toList, Text.isBlank c = false := by
    intro c hc
    rw [numberText, String.toList_ofList] at hc
    exact Text.isBlank_of_mem_signedDigits hc
  have some : numberText n ≠ "" := by
    intro hnone
    have read := Text.int64?_signedDigits n
    rw [← numberText, hnone] at read
    cases read
  rw [Text.content?, Text.trimmed_eq_self dark, if_neg some]

/-- The fields by name. -/
theorem text?_of_toHeaders? {id : String} {size : Geometry} {repo secret : Option String}
    {sent : Headers} (h : toHeaders? id size repo secret = some sent) :
    (∀ field ∈ sent, field.text?.isSome)
      ∧ sent.text? idField = some id
      ∧ sent.text? colsField = some (numberText size.cols)
      ∧ sent.text? rowsField = some (numberText size.rows)
      ∧ sent.text? repoField = repo
      ∧ sent.text? secretField = secret.filter (· ≠ "") := by
  obtain ⟨readable, text⟩ := Headers.text?_of_mapM h
  refine ⟨readable, ?_, ?_, ?_, ?_, ?_⟩
  all_goals
    rw [text]
    cases repo <;> cases secret.filter (· ≠ "") <;>
      simp [idField, colsField, rowsField, repoField, secretField]

/-- What the fields tell is learned from them, up to the white space around the texts. -/
theorem ofHeaders_of_toHeaders? {id : String} {size : Geometry} {repo secret : Option String}
    {sent arrived : Headers} (h : toHeaders? id size repo secret = some sent)
    (ha : List.Forall₂ Header.Arrives sent arrived) :
    ofHeaders arrived = ⟨Text.content? id, size, repo.bind Text.content?⟩ := by
  obtain ⟨readable, hid, hcols, hrows, hrepo, -⟩ := text?_of_toHeaders? h
  have content := Headers.content?_arrives readable ha
  rw [ofHeaders, number, number, content, content, content, content, hid, hcols, hrows, hrepo,
    Option.bind_some, Option.bind_some, Option.bind_some, content?_numberText, content?_numberText,
    Option.bind_some, Option.bind_some, numberText, numberText, Text.int64?_signedDigits,
    Text.int64?_signedDigits]
  rfl

/-- A repository that was learned is not blank, so that it is asked for. -/
theorem filter_content? (repo : Option String) :
    (repo.bind Text.content?).filter (fun r => !Text.blank r)
      = (repo.filter fun r => !Text.blank r).map Text.trimmed := by
  cases repo with
  | none => rfl
  | some r =>
    rw [Option.bind_some, Text.content?_eq]
    cases hr : Text.blank r <;> simp [Option.filter, hr, Text.blank_trimmed]

/-- The edge learns from the fields of a dial, with their texts trimmed on the way or not, exactly
the size of the client's terminal, and the trimmed name of the key and of the repository unless they
are blank. In either mode the first thing that it asks of the host is the message with which the
gate begins, with the name of the repository trimmed. -/
theorem learned_of_dial {backend : Gate.Backend} {r : Gate.SessionRequest} {dial : Gate.Dial}
    (hdial : r.dial backend = .ok dial) {arrived : Headers}
    (ha : List.Forall₂ Header.Arrives dial.headers arrived) :
    let tidy (text : Option String) := (text.filter fun t => !Text.blank t).map Text.trimmed
    let info := ofHeaders arrived
    ∃ size named, r.size = some size ∧ info = ⟨tidy r.fingerprint, size, tidy r.repo⟩
      ∧ dial.first = .init size named
      ∧ info.request = .init size (named.map Text.trimmed)
      ∧ (Edge.Pipe.start info .opened).toHost =
        [Edge.Pipe.frameOf (.init size (named.map Text.trimmed))]
      ∧ ∀ {σ : Type} (settings : Edge.Settings) (ask : Edge.Exchange σ) (host : σ),
        (Edge.Poll.start settings info ask host).1 =
          (ask (Edge.initRequest (.init size (named.map Text.trimmed))) host).1 := by
  intro tidy info
  obtain ⟨id, size, hid, hsize, hheaders, hfirst⟩ := Gate.SessionRequest.dial_eq_ok_iff.mp hdial
  have hfingerprint := (Gate.SessionRequest.identity_eq_ok_iff.mp hid).1
  have learned : info = ⟨Text.content? id, size, r.repo.bind Text.content?⟩ :=
    ofHeaders_of_toHeaders? hheaders ha
  have asked : info.request =
      .init size ((r.repo.filter fun t => !Text.blank t).map Text.trimmed) := by
    rw [learned, request, Message.request, filter_content?]
  refine ⟨size, r.repo.filter fun t => !Text.blank t, hsize, ?_, hfirst, asked, ?_, ?_⟩
  · rw [learned, hfingerprint, Text.content?_eq]
    cases r.repo with
    | none => rfl
    | some repo => rw [Option.bind_some, Text.content?_eq]
  · rw [← asked]
    rfl
  · intro σ settings ask host
    rw [← asked]
    exact Edge.Poll.start_fst ask host settings info

theorem learned_of_dial_trimmed :
    let backend : Gate.Backend := { url := "ws://edge/ws" }
    let r : Gate.SessionRequest :=
      { fingerprint := some " key", verdict := some .accepted
        size := some ⟨-1, 9223372036854775807⟩, repo := some " octo/widgets\t" }
    ∃ dial, r.dial backend = .ok dial
      ∧ List.Forall₂ Header.Arrives dial.headers (dial.headers.map Header.delivered)
      ∧ ofHeaders (dial.headers.map Header.delivered) =
        ⟨some "key", ⟨-1, 9223372036854775807⟩, some "octo/widgets"⟩ := by
  intro backend r
  obtain ⟨dial, hdial⟩ : ∃ dial, r.dial backend = .ok dial := ⟨_, rfl⟩
  have arrives : List.Forall₂ Header.Arrives dial.headers (dial.headers.map Header.delivered) :=
    List.forall₂_map_right_iff.mpr (List.forall₂_same.mpr fun _ _ => .inr rfl)
  obtain ⟨size, named, hsize, learned, -⟩ := learned_of_dial hdial arrives
  cases hsize
  exact ⟨dial, hdial, arrives, learned⟩

end SessionInfo
end TermLink
