import Permits.Decision.Basic
import Permits.Json

set_option autoImplicit false

namespace Permits.Report

def json (report : Report) : Json :=
  .object ([("ok", .bool report.ok), ("authorized", .bool report.authorized)] ++
    (report.message.map fun text => ("message", Json.text text)).toList ++
    (report.error.map fun text => ("error", Json.text text)).toList)

end Permits.Report
