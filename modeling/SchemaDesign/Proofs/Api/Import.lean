import SchemaDesign.Api.Service
import SchemaDesign.Api.Standard
import SchemaDesign.Proofs.Ddl.Account
import SchemaDesign.Proofs.Ddl.Sized
import SchemaDesign.Proofs.Store.Calls

/-! Imports: which texts the reader, a store and the service answer with a report, and that a report
accounts for all of its text. -/
namespace SchemaDesign

variable {s : Store String} {text : String}

namespace Store

theorem importDdl_eq_ok_iff : (∃ r, (s.importDdl text).result = .ok r) ↔ Ddl.Readable text := by
  rw [← Ddl.read_eq_ok_iff s.ids]
  exact exists_congr fun r => importDdl_result_eq_ok

end Store

namespace Api

theorem importTables_result_eq_ok {a : Response} :
    (importTables s text).result = .ok a ↔
      ∃ r, (s.importDdl text).result = .ok r ∧ ⟨200, some (reportJson r)⟩ = a := by
  cases h : (s.importDdl text).result <;> simp [importTables, h]

theorem Framework.send_eq_ok {fw : Framework} {r a : Response} :
    fw.send r = .ok a ↔ fw.fault? r = none ∧ r = a := by
  cases h : fw.fault? r <;> simp [Framework.send, h]

theorem respond_of_perform {fw : Framework} {settings : Settings} {now : String} {r : Request}
    {op : Operation} {o : Outcome String Answer} (hroute : fw.route r.method r.path.toList = .operation op)
    (h : perform fw settings now s op r.body = .ok o) :
    respond fw settings now s r = { o with result := o.result.bind fw.send } := by
  simp only [respond, hroute, h]

/-- An import is answered if its text is read and the report on it can be sent. -/
theorem respond_importDdl_eq_ok {fw : Framework} {settings : Settings} {now : String} {r : Request}
    (hroute : fw.route r.method r.path.toList = .operation .importDdl)
    (hbody : fw.read (importModel fw.toValidators) r.body = .ok text) {a : Response} :
    (respond fw settings now s r).result = .ok a ↔
      ∃ report, (s.importDdl text).result = .ok report ∧
        fw.fault? ⟨200, some (reportJson report)⟩ = none ∧ ⟨200, some (reportJson report)⟩ = a := by
  have hperform : perform fw settings now s .importDdl r.body = .ok (importTables s text) := by
    simp only [perform, hbody, Except.map]
  rw [respond_of_perform hroute hperform]
  constructor
  · intro h
    obtain ⟨response, hresponse, hsent⟩ := bind_eq_ok.1 h
    obtain ⟨report, hreport, rfl⟩ := importTables_result_eq_ok.1 hresponse
    exact ⟨report, hreport, Framework.send_eq_ok.1 hsent⟩
  · rintro ⟨report, hreport, hsent⟩
    exact bind_eq_ok.2
      ⟨_, importTables_result_eq_ok.2 ⟨report, hreport, rfl⟩, Framework.send_eq_ok.2 hsent⟩

/-- A text is read as a report exactly if no column that it defines is given a length of too many digits,
and nothing else can go wrong. The report accounts for every part of the text. A request that brings the
text to be imported is answered exactly if, besides, the report can be sent. -/
theorem answers_import_iff (text : String) :
    (∀ ids, (∃ r, Ddl.read ids text = .ok r) ↔ Ddl.Readable text) ∧
    (∀ ids r, Ddl.read ids text = .ok r → r.Accounts text) ∧
    (∀ ids e, Ddl.read ids text = .error e → ∃ n, Text.maxDigits < n ∧ e.cause = .tooLong n) ∧
    (∀ s : Store String, (∃ r, (s.importDdl text).result = .ok r) ↔ Ddl.Readable text) ∧
    (∀ (fw : Framework) settings now s r, fw.route r.method r.path.toList = .operation .importDdl →
      fw.read (importModel fw.toValidators) r.body = .ok text →
      ((∃ a, (respond fw settings now s r).result = .ok a) ↔ Ddl.Readable text ∧
        ∀ report, (s.importDdl text).result = .ok report →
          fw.fault? ⟨200, some (reportJson report)⟩ = none)) := by
  refine ⟨fun ids => Ddl.read_eq_ok_iff ids, fun ids r h => Ddl.read_accounts h,
    fun ids e h => Ddl.read_eq_error h, fun s => Store.importDdl_eq_ok_iff,
    fun fw settings now s r hroute hbody => ?_⟩
  rw [← Store.importDdl_eq_ok_iff (s := s)]
  constructor
  · rintro ⟨a, ha⟩
    obtain ⟨report, hreport, hsent, -⟩ := (respond_importDdl_eq_ok hroute hbody).1 ha
    refine ⟨⟨report, hreport⟩, fun report' hreport' => ?_⟩
    rw [Except.ok.inj (hreport'.symm.trans hreport)]
    exact hsent
  · rintro ⟨⟨report, hreport⟩, hsent⟩
    exact ⟨_, (respond_importDdl_eq_ok hroute hbody).2 ⟨report, hreport, hsent report hreport, rfl⟩⟩

/-- The settings of an empty environment. -/
def plainSettings : Settings where
  exports := ⟨"tabledraft", "com.example.model", "postgresql", 255⟩
  logging := ⟨"INFO", none⟩
  server := ⟨"127.0.0.1", 8000⟩

def sizedImport : Request :=
  ⟨"POST", "/tables/import", "\x7b\x22ddl\x22: \x22CREATE TABLE t (a varchar(40))\x22\x7d"⟩

theorem read_sizedImport :
    standard.read (importModel standardValidators) sizedImport.body = .ok (Ddl.sizedText ['4', '0']) := by
  have hsome : (standard.read (importModel standardValidators) sizedImport.body).toOption =
      some (Ddl.sizedText ['4', '0']) := by decide +kernel
  cases h : standard.read (importModel standardValidators) sizedImport.body with
  | error e => simp [h, Except.toOption] at hsome
  | ok t => simpa [h, Except.toOption] using hsome

theorem answers_import_sizedText :
    (∃ r, Ddl.read .counter (Ddl.sizedText ['4', '0']) = .ok r ∧
      r.Accounts (Ddl.sizedText ['4', '0'])) ∧
      ∃ a, (respond standard plainSettings "" (Store.empty .counter) sizedImport).result = .ok a := by
  have hreadable : Ddl.Readable (Ddl.sizedText ['4', '0']) :=
    (Ddl.readable_sizedText (by decide)).2 (by decide)
  obtain ⟨hread, haccounts, -, -, hanswers⟩ := answers_import_iff (Ddl.sizedText ['4', '0'])
  obtain ⟨r, hr⟩ := (hread .counter).2 hreadable
  have hfaultless : ((Store.empty .counter : Store String).importDdl (Ddl.sizedText ['4', '0'])).result.map
      (fun report => standard.fault? ⟨200, some (reportJson report)⟩) = .ok none := by decide +kernel
  refine ⟨⟨r, hr, haccounts .counter r hr⟩,
    (hanswers standard plainSettings "" (Store.empty .counter) sizedImport rfl read_sizedImport).2
      ⟨hreadable, fun report hreport => ?_⟩⟩
  rw [hreport] at hfaultless
  exact Except.ok.inj hfaultless

theorem not_answers_overlongText : ¬ ∃ r, Ddl.read .counter Ddl.overlongText = .ok r := by
  rw [Ddl.read_eq_ok_iff]
  exact Ddl.not_readable_overlongText

end Api

end SchemaDesign
