import SchemaDesign.Proofs.Api.Import

/-! Sessions: each request meets the store that the requests before it have left, and a request that
fails leaves every table as it was, unless all that fails is to tell of its success. -/
namespace SchemaDesign.Api

section Operation

variable {s : Store String} {d : Draft String} {id : String}

variable {fw : Framework} {settings : Settings} {now : String}

end Operation

/-! Whole sessions -/

section Session

variable {fw : Framework} {settings : Settings} {now : String}

end Session

end SchemaDesign.Api
